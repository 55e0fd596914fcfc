import Substation.Generation
import Substation.Proofs.Base64Texts
import Substation.Proofs.Binding
import Substation.Proofs.BoundReferences
import Substation.Proofs.CheckedValues
import Substation.Proofs.ConfiguredText
import Substation.Proofs.Connections
import Substation.Proofs.DataUnrolling
import Substation.Proofs.DepthLimit
import Substation.Proofs.DeviceNames
import Substation.Proofs.Edits
import Substation.Proofs.ElementValues
import Substation.Proofs.EnumValues
import Substation.Proofs.ExpandedStructures
import Substation.Proofs.Generations
import Substation.Proofs.HardwareAddresses
import Substation.Proofs.IndexedMembers
import Substation.Proofs.InstanceIssues
import Substation.Proofs.IntegerLiterals
import Substation.Proofs.KnownSpaces
import Substation.Proofs.LimitedSinks
import Substation.Proofs.LoggedIssues
import Substation.Proofs.MemberChecks
import Substation.Proofs.NamespaceParts
import Substation.Proofs.Navigation
import Substation.Proofs.Numbering
import Substation.Proofs.NumericValues
import Substation.Proofs.Recorders
import Substation.Proofs.RenamedNodes
import Substation.Proofs.ReportInstances
import Substation.Proofs.Revisions
import Substation.Proofs.Rollbacks
import Substation.Proofs.SoundTemplates
import Substation.Proofs.Stems
import Substation.Proofs.Trackers
import Substation.Proofs.UndefinedTypes
import Substation.Proofs.UsageClosure
import Substation.Proofs.ValueSources
import Substation.Proofs.WrittenMembers
