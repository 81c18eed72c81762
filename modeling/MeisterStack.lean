import MeisterStack.ClusterController.PlacementSafety
import MeisterStack.ClusterController.HolderTeardown
import MeisterStack.CloudController.SoleHolder
import MeisterStack.CloudController.Unbinding
import MeisterStack.CloudController.QuotaSafety
import MeisterStack.CloudController.RangeSafety
import MeisterStack.Agent.SoleVmm
import MeisterStack.Agent.Reception
import MeisterStack.Agent.HandsOff
import MeisterStack.ClusterController.VolumeSafety
import MeisterStack.ClusterController.MigrationGuarantees
import MeisterStack.Filesystem.Published
import MeisterStack.ControllerApi.Vni
import MeisterStack.CloudController.PoolReferences
import MeisterStack.CloudController.VolumeMoves
import MeisterStack.CloudController.SnapshotEvidence
import MeisterStack.CloudController.RouterBinding
import MeisterStack.ClusterController.SnapshotRemoval
import MeisterStack.ClusterController.RouterLedger
import MeisterStack.ClusterController.StatusReport
import MeisterStack.ClusterController.MigrationEvidence
import MeisterStack.ClusterController.CloudWithdrawal
import MeisterStack.ClusterController.Namespaces
import MeisterStack.ControllerApi.ExternalAddr
import MeisterStack.ControllerApi.FrozenShape
import MeisterStack.ClusterController.MigrationStart
import MeisterStack.ClusterController.VolumeClaims
import MeisterStack.ClusterController.Dispatch
import MeisterStack.ControllerApi.Settling
import MeisterStack.CloudController.Voice
import MeisterStack.Agent.FixedDisks
import MeisterStack.Agent.SourceEvidence
import MeisterStack.Agent.VmTable
import MeisterStack.Agent.Farewell
import MeisterStack.ControllerApi.Reservations
import MeisterStack.ControllerApi.Revocations
import MeisterStack.LinuxNetwork.Frr
import MeisterStack.CloudController.ImageEvidence
import MeisterStack.ClusterController.Drift
import MeisterStack.ControllerApi.PhaseWire
import MeisterStack.Nvrm.Admission
