import Lox.CommandLine
import Lox.Main
import Lox.Proofs.CommandLine
import Lox.Proofs.Execution.ClassHistories
import Lox.Proofs.Execution.NearestBindings
import Lox.Proofs.Execution.Origins
import Lox.Proofs.Execution.Reachability
import Lox.Proofs.Execution.Restoration
import Lox.Proofs.Execution.Returns
import Lox.Proofs.Execution.ScopeChains
import Lox.Proofs.Grammar.Concatenation
import Lox.Proofs.Grammar.DisplayedTrees
import Lox.Proofs.Grammar.ExpressionExact
import Lox.Proofs.Grammar.Positions
import Lox.Proofs.Grammar.ProgramExact
import Lox.Proofs.Grammar.ProperTrees
import Lox.Proofs.Grammar.Recovery
import Lox.Proofs.Scoping.Exact
import Lox.Proofs.Scoping.Reuse
import Lox.Proofs.Session.Assignments
import Lox.Proofs.Session.Calls
import Lox.Proofs.Session.Dispatch
import Lox.Proofs.Session.Expressions
import Lox.Proofs.Session.ForLoops
import Lox.Proofs.Session.Frames
import Lox.Proofs.Session.Layouts
import Lox.Proofs.Session.Numbers
import Lox.Proofs.Session.Pieces
import Lox.Proofs.Session.Rejections
import Lox.Proofs.Session.Renaming
import Lox.Proofs.Session.Reports
import Lox.Proofs.Session.Scopes
import Lox.Proofs.Session.Results
import Lox.Proofs.Session.Searches
import Lox.Proofs.Source.Joined
import Lox.Proofs.Source.Rescanned
