import DeviceLibs.Exchange
import DeviceLibs.Main
import DeviceLibs.Proofs.History
import DeviceLibs.Proofs.SupportedIsas
import DeviceLibs.Proofs.TypedRequest
import DeviceLibs.Proofs.Json.Spelling
import DeviceLibs.Proofs.Json.Members
import DeviceLibs.Proofs.Json.Value
import DeviceLibs.Proofs.Exchange
import DeviceLibs.Proofs.Listing
import DeviceLibs.Proofs.Commands
import DeviceLibs.Proofs.Limits
import DeviceLibs.Proofs.NormalForm
import DeviceLibs.Proofs.EventLog
import DeviceLibs.Proofs.CommandLine
import DeviceLibs.Proofs.FileTree
import DeviceLibs.Proofs.Independence
import DeviceLibs.Proofs.LocationPath
import DeviceLibs.Proofs.IdentifierGrammar
import DeviceLibs.Proofs.OptionGrammar
import DeviceLibs.Proofs.ProcessorName
import DeviceLibs.Proofs.LexicalParent
import DeviceLibs.Proofs.ConfigSearch
import DeviceLibs.Proofs.OptionUnion
import DeviceLibs.Proofs.Reservation
import DeviceLibs.Proofs.TreeGrowth
import DeviceLibs.Proofs.Directories
import DeviceLibs.Proofs.Extraction
import DeviceLibs.Proofs.ListingTable
import DeviceLibs.Proofs.Batches
import DeviceLibs.Proofs.InitialConfig
import DeviceLibs.Proofs.RecordContent
import DeviceLibs.Proofs.VersionNumber
