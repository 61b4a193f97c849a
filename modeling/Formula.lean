import Formula.Function.Further
import Formula.Main
import Formula.Proofs.Expr.Reordering
import Formula.Proofs.Parser.Depth
import Formula.Proofs.Parser.Levels
import Formula.Proofs.Expr.Simplification
import Formula.Proofs.Expr.Terms
import Formula.Proofs.Lexer.Earlier
import Formula.Proofs.Lexer.Progress
import Formula.Proofs.Lexer.Rendering
import Formula.Proofs.Lexer.Shape
import Formula.Proofs.Lexer.Skipping
import Formula.Proofs.Parser.Acceptance
import Formula.Proofs.Parser.Chains
import Formula.Proofs.Parser.Iteration
import Formula.Proofs.Parser.RoundTrip
import Formula.Proofs.Parser.Blanks
import Formula.Proofs.Expr.NormalForm
import Formula.Proofs.Expr.Polynomials
import Formula.Proofs.Expr.Folding
import Formula.Proofs.Parser.Rejection
import Formula.Proofs.Lexer.Comments
import Formula.Proofs.TokenStream.Splitting
import Formula.Proofs.TokenStream.Consuming
import Formula.Proofs.Parser.Consumption
import Formula.Proofs.Lexer.Quoting
import Formula.Proofs.Lexer.Lexemes
import Formula.Proofs.TokenStream.Layout
import Formula.Proofs.Function.Reals
import Formula.Proofs.Expr.Reals
import Formula.Proofs.Store.Chains
import Formula.Proofs.Value.Comparisons
import Formula.Proofs.Parser.Precision
import Formula.Proofs.Parser.Order
import Formula.Proofs.Parser.Numerals
import Formula.Proofs.Store.Visibility
import Formula.Proofs.Parser.Progress
import Formula.Proofs.TokenStream.Failing
import Formula.Proofs.Expr.Keeping
import Formula.Proofs.Expr.RealParts
import Formula.Proofs.Lookahead.Cursor
import Formula.Proofs.Expr.Clashes
import Formula.Proofs.Lexer.NumeralLanguage
import Formula.Proofs.TokenStream.Numerals
import Formula.Proofs.TokenStream.Quotations
import Formula.Proofs.Expr.Occurrences
import Formula.Proofs.TokenStream.Upcoming
import Formula.Proofs.Store.Gaining
import Formula.Proofs.Parser.Names
import Formula.Proofs.Parser.Effects
import Formula.Proofs.Store.Frame
import Formula.Proofs.Value.Remainders
import Formula.Proofs.Store.Modes
import Formula.Proofs.CommandLine.Arrangement
import Formula.Proofs.Config.Loading
import Formula.Proofs.Value.Symmetry
import Formula.Proofs.Expr.Chains
import Formula.Proofs.Expr.Walk
import Formula.Proofs.TokenStream.Keywords
