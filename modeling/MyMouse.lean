import MyMouse.Run
import MyMouse.BitMask
import MyMouse.Gpio
import MyMouse.GpioEdges
import MyMouse.Debounce
import MyMouse.DebounceRun
import MyMouse.DebouncePin
import MyMouse.DebounceDelivery
import MyMouse.SpiReturned
import MyMouse.FlashImage
import MyMouse.ReportLength
import MyMouse.FlashBounds
import MyMouse.UsbDescriptor
import MyMouse.AvrPower
import MyMouse.SpiMeaning
import MyMouse.Collector
import MyMouse.Clicks
import MyMouse.ButtonsCollector
import MyMouse.CollectorWakeup
import MyMouse.Encoder
import MyMouse.OptSensor
import MyMouse.AvrCrc
import MyMouse.ReportValues
import MyMouse.ModeSwitch
import MyMouse.BootChoice
import MyMouse.BtConn
import MyMouse.BtTurns
import MyMouse.BtLink
import MyMouse.BootWrites
import MyMouse.FlashPanic
import MyMouse.GpioBook
import MyMouse.DebounceCells
import MyMouse.DebounceClients
import MyMouse.DebounceFinal
import MyMouse.DebounceSpacing
import MyMouse.DebounceSchedule
import MyMouse.SpiConfig
import MyMouse.MotionWakeup
import MyMouse.Simulation
import MyMouse.ToggleFifo
import MyMouse.ButtonQueues
import MyMouse.FillerOrder
import MyMouse.ButtonMode
import MyMouse.Battery
import MyMouse.FileFraming
import MyMouse.PullHandover
import MyMouse.Rotation
import MyMouse.LogBounds
import MyMouse.UpdateSession
import MyMouse.ButtonSettling
import MyMouse.PointerPath
import MyMouse.ShellPath
