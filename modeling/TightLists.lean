import TightLists.Host
import TightLists.Main
import TightLists.Proofs.CanonicalSpacing
import TightLists.Proofs.PasteGate
import TightLists.Remote
import TightLists.Proofs.PasteThenFix
import TightLists.Proofs.Contents
import TightLists.Proofs.Following
import TightLists.Proofs.Holder
import TightLists.Proofs.NoteFixing
import TightLists.Proofs.Batches
import TightLists.Proofs.FixModes
import TightLists.Proofs.PasteCommand
import TightLists.Proofs.RemoteSimulation
import TightLists.Proofs.QuotedStrings
import TightLists.Proofs.SettingsText
import TightLists.Proofs.WrittenFiles
import TightLists.Proofs.SavedSettings
import TightLists.Proofs.EditorParts
import TightLists.Proofs.QuickLookLines
import TightLists.Proofs.CommandFrame
import TightLists.Proofs.DurableSwitch
import TightLists.Proofs.CutTexts
import TightLists.Proofs.LineEndings
import TightLists.Proofs.NoteListing
import TightLists.Proofs.FailingPaths
import TightLists.Proofs.Snapping
import TightLists.Proofs.LineKinds
import TightLists.Proofs.WrittenNotes
