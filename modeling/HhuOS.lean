import HhuOS.Util.Exception
import HhuOS.Util.String
import HhuOS.Device.Cpu
import HhuOS.Device.CpuInterleaving
import HhuOS.Device.Fpu
import HhuOS.Device.Fpu.ControlRegister
import HhuOS.Kernel.System
import HhuOS.Kernel.System.MemoryMap
import HhuOS.Kernel.System.GlobalDescriptorTable
import HhuOS.Device.Graphic.ColorGraphicsArray
import HhuOS.Util.Game.Graphics
import HhuOS.Util.Game.Image
import HhuOS.Application.Pic.History
import HhuOS.Application.Pic.HistoryFile
import HhuOS.Application.Pic.HistoryCommand
import HhuOS.Application.Pic.Settings
import HhuOS.Os.FileSystem.Path
import HhuOS.Os.FileSystem
import HhuOS.Os.FileSystem.Operations
import HhuOS.Network.Ip4.Ip4RoutingModule
