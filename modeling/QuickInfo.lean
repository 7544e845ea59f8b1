import QuickInfo.Main
import QuickInfo.Workspace
import QuickInfo.Proofs.Project.Addition
import QuickInfo.Proofs.Project.Duplicates
import QuickInfo.Proofs.Project.FirstRefusal
import QuickInfo.Proofs.Project.Stability
import QuickInfo.Proofs.Project.Spelling
import QuickInfo.Proofs.Project.WrittenNames
import QuickInfo.Proofs.Facet.Monotone
import QuickInfo.Proofs.Facet.Hidden
import QuickInfo.Proofs.Facet.Words
import QuickInfo.Proofs.Header.Qualification
import QuickInfo.Proofs.Header.MemberLayout
import QuickInfo.Proofs.Constant
import QuickInfo.Proofs.Listing.Failure
import QuickInfo.Proofs.Listing.Permutation
import QuickInfo.Proofs.Listing.DisplayNames
import QuickInfo.Proofs.TypeText.ParameterLists
import QuickInfo.Proofs.TypeText.Arrays
import QuickInfo.Proofs.TypeText.Nullable
import QuickInfo.Proofs.TypeText.Unresolved
import QuickInfo.Proofs.Snapshot.Alteration
