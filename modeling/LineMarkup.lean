import LineMarkup.Host.Samples
import LineMarkup.Node.Decode
import LineMarkup.Outline
import LineMarkup.Proofs.AddressingModes
import LineMarkup.Proofs.CodeOrder
import LineMarkup.Proofs.ErrorLocation
import LineMarkup.Proofs.LayoutOutcome
import LineMarkup.Proofs.LayoutRefinement
import LineMarkup.Proofs.NameResolution
import LineMarkup.Proofs.PrintedReading
import LineMarkup.Proofs.QuotedTexts
import LineMarkup.Proofs.RenderingLocality
import LineMarkup.Proofs.SourceRoundTrip
import LineMarkup.Proofs.Splicing
import LineMarkup.Proofs.TagHeads
import LineMarkup.Proofs.SideLists
import LineMarkup.Proofs.HostErrors
import LineMarkup.Proofs.ProgramBuilding
import LineMarkup.Proofs.Retouches
import LineMarkup.Proofs.ExpressionParts
import LineMarkup.Proofs.FailurePlaces
import LineMarkup.Proofs.SpanNesting
import LineMarkup.Proofs.Parentheses
import LineMarkup.Proofs.ShiftedExpressions
import LineMarkup.Proofs.SpanSlices
import LineMarkup.Proofs.JsonTexts
import LineMarkup.Proofs.NodeTexts
import LineMarkup.Proofs.OperatorTrees
import LineMarkup.Proofs.ArgumentChecks
import LineMarkup.Proofs.CaretRows
import LineMarkup.Proofs.ValueEquality
import LineMarkup.Proofs.QuotedLiterals
import LineMarkup.Proofs.Walking
