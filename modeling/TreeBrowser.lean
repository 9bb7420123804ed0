import TreeBrowser.Main
import TreeBrowser.Proofs.Browser.DropRefetch
import TreeBrowser.Proofs.Browser.RootSafety
import TreeBrowser.Proofs.Workspace.RoundTrip
import TreeBrowser.Proofs.Browser.Focus
import TreeBrowser.Proofs.Text.Blank
import TreeBrowser.Proofs.Browser.Change
import TreeBrowser.Proofs.Browser.Warrant
import TreeBrowser.Proofs.Browser.Span
import TreeBrowser.Proofs.Browser.Refetch
import TreeBrowser.Proofs.Browser.Rename
import TreeBrowser.Proofs.Replay
import TreeBrowser.Proofs.Workspace.KeyOrder
import TreeBrowser.Proofs.Browser.Stepping
import TreeBrowser.Proofs.VisualOrder.Splice
import TreeBrowser.Proofs.VisualOrder.Ties
import TreeBrowser.Proofs.Tree.Nesting
import TreeBrowser.Proofs.Browser.SiblingOrder
import TreeBrowser.Proofs.Move.Cycles
import TreeBrowser.Proofs.Selection.ShiftClick
import TreeBrowser.Proofs.Selection.Toggle
import TreeBrowser.Proofs.Script.Grammar
import TreeBrowser.Proofs.VisualOrder.Blocks
import TreeBrowser.Proofs.Outline.Indent
import TreeBrowser.Proofs.Browser.Polling
import TreeBrowser.Proofs.CommandLine
