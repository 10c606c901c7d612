import ArmishFireplace.Actions
import ArmishFireplace.Buffer.BufferItem
import ArmishFireplace.Buffer.QueueBuffer
import ArmishFireplace.Locks
import ArmishFireplace.Module.Brazil.BobwireCircuit
import ArmishFireplace.Module.Brazil.Transmit
import ArmishFireplace.Module.ModuleManager
import ArmishFireplace.Module.Parameters
import ArmishFireplace.Module.Trabea.CirculatorSwitch
import ArmishFireplace.Net.AsyncWork
import ArmishFireplace.Net.Server
import ArmishFireplace.Net.SyncWork
import ArmishFireplace.Program
