import PageScript.Main
import PageScript.Proofs.Answers
import PageScript.Proofs.Arguments
import PageScript.Proofs.Arrays.Limit
import PageScript.Proofs.Arrays.Methods
import PageScript.Proofs.Arrays.Sparse
import PageScript.Proofs.Arrays.Spelling
import PageScript.Proofs.BreakingOff
import PageScript.Proofs.Collection.Exact
import PageScript.Proofs.Collection.Invisible
import PageScript.Proofs.Collection.Registry
import PageScript.Proofs.Concatenation
import PageScript.Proofs.ConstructedFunctions
import PageScript.Proofs.ControlFlow.Completions
import PageScript.Proofs.Dates.Reading
import PageScript.Proofs.Declarations
import PageScript.Proofs.Ending
import PageScript.Proofs.Enumeration
import PageScript.Proofs.Equality
import PageScript.Proofs.Errors
import PageScript.Proofs.Hooked
import PageScript.Proofs.LexicalScope
import PageScript.Proofs.LoopHeads
import PageScript.Proofs.Nesting
import PageScript.Proofs.Numbers.Prefixes
import PageScript.Proofs.Numbers.Radix
import PageScript.Proofs.Positions
import PageScript.Proofs.Precedence
import PageScript.Proofs.Printing.RoundTrip
import PageScript.Proofs.Properties
import PageScript.Proofs.Prototypes
import PageScript.Proofs.Receivers
import PageScript.Proofs.Secrets
import PageScript.Proofs.SharedScope
import PageScript.Proofs.Stacks
import PageScript.Proofs.SyntaxErrors.Reports
import PageScript.Proofs.Texts.CharCodes
import PageScript.Proofs.Texts.Escaping
import PageScript.Proofs.Texts.Splitting
import PageScript.Proofs.Unwinding
