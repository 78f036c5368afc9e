import ArrowLang.Main
import ArrowLang.Proofs.Typing.FirstViolation
import ArrowLang.Proofs.Arith.Checking
import ArrowLang.Proofs.Parsing.Sessions
import ArrowLang.Proofs.Grammar.Prefix
import ArrowLang.Proofs.Verdict.Layout
import ArrowLang.Proofs.Verdict.PrintedTypes
import ArrowLang.Proofs.Typing.Programs
import ArrowLang.Proofs.Typing.Renaming
import ArrowLang.Proofs.Traversal.Arithmetic
import ArrowLang.Proofs.Token.Exactness
import ArrowLang.Proofs.Token.Lines
import ArrowLang.Proofs.Grammar.Concatenation
import ArrowLang.Proofs.Parsing.Safety
import ArrowLang.Proofs.Grammar.Height
import ArrowLang.Proofs.Grammar.Arithmetic
import ArrowLang.Proofs.Typing.Equivalence
import ArrowLang.Proofs.Typing.Scopes
import ArrowLang.Proofs.Arith.Restriction
