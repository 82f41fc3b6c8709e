import PhraseGrammar.Json.Printer
import PhraseGrammar.Service.Routes
import PhraseGrammar.Token.Lexer
import PhraseGrammar.Proofs.Expansion.Environment
import PhraseGrammar.Proofs.Expansion.Simulation
import PhraseGrammar.Proofs.Grammar.Linking
import PhraseGrammar.Proofs.Rules.Postcondition
import PhraseGrammar.Proofs.Rules.Accepted
import PhraseGrammar.Proofs.Expansion.Safety
import PhraseGrammar.Proofs.Expansion.Language
import PhraseGrammar.Proofs.Token.Lexemes
import PhraseGrammar.Proofs.Rules.Recognition
import PhraseGrammar.Proofs.Rules.Syntax
import PhraseGrammar.Proofs.Rules.RuleRecognition
import PhraseGrammar.Proofs.Rules.ContextRecognition
import PhraseGrammar.Proofs.Rules.SourceRecognition
import PhraseGrammar.Proofs.Token.Forms
import PhraseGrammar.Proofs.Token.Lookahead
import PhraseGrammar.Proofs.Token.Marks
import PhraseGrammar.Proofs.Rules.Pointing
import PhraseGrammar.Proofs.Grammar.InPlace
import PhraseGrammar.Proofs.Rules.Contents
import PhraseGrammar.Proofs.Expansion.Reachable
import PhraseGrammar.Proofs.Expansion.Roots
import PhraseGrammar.Proofs.Expansion.Interleaving
import PhraseGrammar.Proofs.Token.FrontForms
import PhraseGrammar.Proofs.Rules.Literals
import PhraseGrammar.Proofs.Rules.Failures
import PhraseGrammar.Proofs.Expansion.Causes
import PhraseGrammar.Proofs.Service.Setting
import PhraseGrammar.Proofs.Service.Generation
import PhraseGrammar.Proofs.Service.History
import PhraseGrammar.Proofs.Expansion.Choices
import PhraseGrammar.Proofs.Rules.Layout
import PhraseGrammar.Proofs.Rules.Concatenation
import PhraseGrammar.Proofs.Expansion.Memory
import PhraseGrammar.Proofs.Expansion.Batches
import PhraseGrammar.Proofs.Token.Essence
import PhraseGrammar.Proofs.Token.Separation
import PhraseGrammar.Proofs.Rules.Relevance
import PhraseGrammar.Proofs.Expansion.Renaming
import PhraseGrammar.Proofs.Rules.Ranges
import PhraseGrammar.Proofs.Expansion.Limits
import PhraseGrammar.Proofs.Grammar.Showing
import PhraseGrammar.Proofs.Rules.Showable
import PhraseGrammar.Proofs.Service.Inspection
import PhraseGrammar.Proofs.Service.Gate
import PhraseGrammar.Proofs.Rules.Fuel
import PhraseGrammar.Proofs.Rules.Requests
import PhraseGrammar.Proofs.Rules.Termination
import PhraseGrammar.Proofs.Token.Readable
