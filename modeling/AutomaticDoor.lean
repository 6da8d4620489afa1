import AutomaticDoor.Foundations.EventSystems
import AutomaticDoor.Foundations.Interleaving
import AutomaticDoor.BoardRegisters
import AutomaticDoor.Foundations.CountDivision
import AutomaticDoor.Foundations.ExactArithmetic
import AutomaticDoor.TimerSetting
import AutomaticDoor.PortSystem
import AutomaticDoor.PortLed
import AutomaticDoor.PortInputs
import AutomaticDoor.PortMotor
import AutomaticDoor.InterruptHandlers
import AutomaticDoor.DoorStateMachine
import AutomaticDoor.LedPanel
import AutomaticDoor.DoorConsistency
import AutomaticDoor.ExtiLines
import AutomaticDoor.PendingLines
import AutomaticDoor.RequestPolling
import AutomaticDoor.TimerAccuracy
import AutomaticDoor.ActionInterleavings
import AutomaticDoor.HandlerStatements
import AutomaticDoor.MainLoop
import AutomaticDoor.MotorOneShot
import AutomaticDoor.Foundations.CallReplays
import AutomaticDoor.Foundations.PackedFields
import AutomaticDoor.PinConfiguration
import AutomaticDoor.InterruptEnabling
import AutomaticDoor.DelayLoops
import AutomaticDoor.LedIndependence
import AutomaticDoor.ActionEffects
import AutomaticDoor.ConfigurationFrames
import AutomaticDoor.DelayBounds
import AutomaticDoor.DoorRefinement
import AutomaticDoor.DoorwayRuns
import AutomaticDoor.ExtiRouting
import AutomaticDoor.FirmwareRuns
import AutomaticDoor.PreemptedActions
import AutomaticDoor.EdgeSystem
import AutomaticDoor.EntranceRuns
import AutomaticDoor.Foundations.Commutation
import AutomaticDoor.SideIndependence
