import Stencil.Declaration.Printer
import Stencil.Table.Arena
import Stencil.Dialect.Brace
import Stencil.Files.Tree
import Stencil.Listing.Edit
import Stencil.Main
import Stencil.Proofs.TextPieces
import Stencil.Proofs.ConstructorBlocks
import Stencil.Proofs.Outcomes
import Stencil.Proofs.Rows
import Stencil.Proofs.ClassOutline
import Stencil.Proofs.Documents
import Stencil.Proofs.DeferredInitializers
import Stencil.Proofs.ConstructorChains
import Stencil.Proofs.References
import Stencil.Proofs.Tables
import Stencil.Proofs.Linking
import Stencil.Proofs.ImportedPackages
import Stencil.Proofs.JsonNumbers
import Stencil.Proofs.JsonScanning
import Stencil.Proofs.JsonRoundTrip
import Stencil.Proofs.JsonRecords
import Stencil.Proofs.DeclarationFormat
import Stencil.Proofs.LoadedTables
import Stencil.Proofs.Reloading
import Stencil.Proofs.Spellings
import Stencil.Proofs.HandleErasure
import Stencil.Proofs.CommonDeclarations
import Stencil.Proofs.OutputPaths
import Stencil.Proofs.DelegationMarkers
import Stencil.Proofs.EmissionFaults
import Stencil.Proofs.TableRuns
import Stencil.Proofs.ArenaLinks
import Stencil.Proofs.ArenaRuns
import Stencil.Proofs.StableLinks
import Stencil.Proofs.FilePlaces
import Stencil.Proofs.FileUpdates
import Stencil.Proofs.EmitPreparation
import Stencil.Proofs.RepeatedEmission
import Stencil.Proofs.ImportSets
import Stencil.Proofs.ConstructorRewriting
import Stencil.Proofs.InitializerLiterals
import Stencil.Proofs.MemberNames
import Stencil.Proofs.CodeSegments
import Stencil.Proofs.TypeReading
import Stencil.Proofs.StaleEmission
import Stencil.Proofs.Violations
import Stencil.Proofs.EditedListings
import Stencil.Proofs.PrintedListings
import Stencil.Proofs.Namespaces
import Stencil.Proofs.WrittenFiles
import Stencil.Proofs.IdentifierCase
