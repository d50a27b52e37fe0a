import StyleTree.Text.Quoted
import StyleTree.Token.Scan
import StyleTree.SExp.Read
import StyleTree.SExp.Session
import StyleTree.SExp.Print
import StyleTree.Node.Walk
import StyleTree.Node.OfSExp
import StyleTree.Node.ToSExp
import StyleTree.Inherit.Resolve
import StyleTree.Json.Print
import StyleTree.Json.Read
import StyleTree.Node.Json
import StyleTree.Settings.Basic
import StyleTree.Files.Expand
import StyleTree.Files.Tree
import StyleTree.Settings.Load
import StyleTree.Command.Arguments
import StyleTree.Command.Run
import StyleTree.Main
import StyleTree.Proofs.Inherit.Rerun
import StyleTree.Proofs.Inherit.Backtrace
import StyleTree.Proofs.Inherit.Renaming
import StyleTree.Proofs.Inherit.History
import StyleTree.Proofs.Node.RoundTrip
import StyleTree.Proofs.Node.Blame
import StyleTree.Proofs.Node.Layout
import StyleTree.Proofs.Node.Compact
import StyleTree.Proofs.Node.Json
import StyleTree.Proofs.Token.Grammar
import StyleTree.Proofs.Inherit.Siblings
import StyleTree.Proofs.Command.Arguments
import StyleTree.Proofs.Files.Expand
import StyleTree.Proofs.Inherit.Survivors
import StyleTree.Proofs.Command.Check
import StyleTree.Proofs.SExp.Nesting
import StyleTree.Proofs.SExp.Session
import StyleTree.Proofs.Node.Notation
import StyleTree.Proofs.Node.Files
import StyleTree.Proofs.Node.Rearranged
import StyleTree.Proofs.Node.Omitted
import StyleTree.Proofs.Node.Outline
