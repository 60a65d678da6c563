import ArrayLang.Main
import ArrayLang.Proofs.ReadingComplete
import ArrayLang.Proofs.ReadingPrefix
import ArrayLang.Proofs.WellFormedness
import ArrayLang.Proofs.Unsigned
import ArrayLang.Proofs.ReadBack
import ArrayLang.Proofs.AccessOrder
import ArrayLang.Proofs.Independence
import ArrayLang.Proofs.LineDeletion
import ArrayLang.Proofs.Transcripts
import ArrayLang.Proofs.Accounts
import ArrayLang.Proofs.NestingLimit
import ArrayLang.Proofs.Parentheses
import ArrayLang.Proofs.ErrorPlaces
import ArrayLang.Proofs.ExplicitGroups
import ArrayLang.Proofs.Spacing
import ArrayLang.Proofs.AssignmentLines
import ArrayLang.Proofs.AxisOrder
import ArrayLang.Proofs.Cells
import ArrayLang.Proofs.Sums
import ArrayLang.Proofs.HangingIndent
import ArrayLang.Proofs.LastAssignments
