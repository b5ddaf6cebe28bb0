import SpeciesSimulator.ClientStart
import SpeciesSimulator.NetTSQueue
import SpeciesSimulator.MapRun
import SpeciesSimulator.ServerGate
import SpeciesSimulator.ServerLookups
import SpeciesSimulator.ServerMaps
import SpeciesSimulator.ServerEntities
import SpeciesSimulator.ClientMessages
import SpeciesSimulator.ClientStartEnd
import SpeciesSimulator.MapScreen
import SpeciesSimulator.ServerSlots
import SpeciesSimulator.NetClientReader
import SpeciesSimulator.ServerRefusal
import SpeciesSimulator.ServerRegistry
import SpeciesSimulator.ServerInterface
import SpeciesSimulator.ServerOwners
import SpeciesSimulator.ServerInstance
import SpeciesSimulator.MapThreads
import SpeciesSimulator.MapMoves
import SpeciesSimulator.NetScramble
import SpeciesSimulator.ServerBroadcast
import SpeciesSimulator.MapAliases
import SpeciesSimulator.NetMsgStack
import SpeciesSimulator.EnvironmentTiles
import SpeciesSimulator.EnvironmentFood
import SpeciesSimulator.ClientDisconnect
import SpeciesSimulator.MapWalls
import SpeciesSimulator.MapNumbers
import SpeciesSimulator.WinConsoleBuffer
import SpeciesSimulator.TSVectorWait
import SpeciesSimulator.MapRunWait
import SpeciesSimulator.Lib.Duplex
import SpeciesSimulator.NetPastHandshake
import SpeciesSimulator.NetServerEnd
import SpeciesSimulator.NetClientEnd
import SpeciesSimulator.NetLink
import SpeciesSimulator.NetLinkProgress
import SpeciesSimulator.NetLinkDelivery
import SpeciesSimulator.ServerWorld
import SpeciesSimulator.ServerSession
import SpeciesSimulator.MapAgain
import SpeciesSimulator.ClientProcess
import SpeciesSimulator.System
import SpeciesSimulator.SystemLink
import SpeciesSimulator.ClientUpdates
import SpeciesSimulator.SystemProgress
import SpeciesSimulator.SystemRuns
import SpeciesSimulator.EnvironmentPicture
import SpeciesSimulator.ServerThreads
import SpeciesSimulator.ServerPictures
import SpeciesSimulator.ClientScreen
import SpeciesSimulator.Deployment
import SpeciesSimulator.DeploymentRuns
import SpeciesSimulator.MapWrap
import SpeciesSimulator.NetChallengeFirst
