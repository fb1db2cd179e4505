import DaqSwitch.Daqswitch.FlowList
import DaqSwitch.Daqswitch.BringUpSwq
import DaqSwitch.Odl.Attribution
import DaqSwitch.Odl.DefaultDelivery
import DaqSwitch.Odl.Distribution
import DaqSwitch.Odl.LinkDiscovery
import DaqSwitch.Odl.RingPorts
import DaqSwitch.OqHwq.CopyBounds
import DaqSwitch.OqHwq.GroupWalk
import DaqSwitch.OqHwq.LcoreParams
import DaqSwitch.OqHwq.ProcessPacket
import DaqSwitch.OqHwq.Switch
import DaqSwitch.Ovs.DaqringOpen
import DaqSwitch.Ovs.DaqringSystem
import DaqSwitch.Pipeline.DataFlow
import DaqSwitch.Pipeline.FdirIds
import DaqSwitch.Pipeline.PktMetadata
import DaqSwitch.Pipeline.PortIn
import DaqSwitch.Pipeline.QueueIds
import DaqSwitch.Pipeline.Shape
import DaqSwitch.Pipeline.TxData
import DaqSwitch.VoqHwq.HardwareQueues
import DaqSwitch.VoqHwq.RouteRules
import DaqSwitch.VoqSwq.Activation
import DaqSwitch.VoqSwq.FlowSetup
import DaqSwitch.VoqSwq.Lossless
import DaqSwitch.VoqSwq.PacedDrain
