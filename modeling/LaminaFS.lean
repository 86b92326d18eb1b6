import LaminaFS.Context.Alive
import LaminaFS.Context.ControlReturns
import LaminaFS.Context.DeviceLife
import LaminaFS.Context.ExactlyOnce
import LaminaFS.Context.FolderService
import LaminaFS.Context.RealTime
import LaminaFS.Context.Returns
import LaminaFS.Context.SelfDeadlock
import LaminaFS.Context.Submitting
import LaminaFS.Path.Safety
import LaminaFS.Processing.Agreement
