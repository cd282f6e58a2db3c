import TreeWalk.Main
import TreeWalk.Parse.Session
import TreeWalk.Proofs.Traced
import TreeWalk.Proofs.Form
import TreeWalk.Proofs.Form.Sound
import TreeWalk.Proofs.Form.Complete
import TreeWalk.Proofs.Stream
import TreeWalk.Proofs.Acceptance
import TreeWalk.Proofs.Refusal
import TreeWalk.Proofs.Recovery
import TreeWalk.Proofs.Extension
import TreeWalk.Proofs.Composition
import TreeWalk.Proofs.Printing
import TreeWalk.Proofs.Structural
import TreeWalk.Proofs.Unwinding
import TreeWalk.Proofs.EndOfInput
import TreeWalk.Proofs.Memory
import TreeWalk.Proofs.Sharing
import TreeWalk.Proofs.Layout
import TreeWalk.Proofs.Stuck
import TreeWalk.Proofs.Stuck.Sound
import TreeWalk.Proofs.Stuck.Complete
import TreeWalk.Proofs.Earliest
import TreeWalk.Proofs.Conversation
import TreeWalk.Proofs.Agreement
import TreeWalk.Proofs.Tracing
import TreeWalk.Proofs.Exact
import TreeWalk.Proofs.Nesting
import TreeWalk.Proofs.Census
import TreeWalk.Proofs.Flattening
import TreeWalk.Proofs.Operands
import TreeWalk.Proofs.Inert
import TreeWalk.Proofs.Truth
import TreeWalk.Proofs.Routines
import TreeWalk.Proofs.Truthful
import TreeWalk.Proofs.Turns
import TreeWalk.Proofs.Position
import TreeWalk.Proofs.Leaves
import TreeWalk.Proofs.Blocks
