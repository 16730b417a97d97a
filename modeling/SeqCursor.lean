import SeqCursor.Bounds
import SeqCursor.Cursor.Basic
import SeqCursor.Cursor.Movement
import SeqCursor.Cursor.Opening
import SeqCursor.Cursor.Reading
import SeqCursor.Inspect
import SeqCursor.Inspect.CodePoints
import SeqCursor.Inspect.Quoted
import SeqCursor.Keyed
import SeqCursor.Notice
import SeqCursor.Operation
import SeqCursor.PlainCursor
import SeqCursor.ReadError
import SeqCursor.Reply
import SeqCursor.Sequence.Basic
import SeqCursor.Sequence.Indexed
import SeqCursor.Sequence.Lawful
import SeqCursor.Sequence.Text
import SeqCursor.Sequence.Text.Lemmas
import SeqCursor.Session
import SeqCursor.Sink
import SeqCursor.Proofs.Coherence
import SeqCursor.Proofs.Reading
import SeqCursor.Proofs.PlainRefinement
import SeqCursor.Proofs.SessionInvariant
import SeqCursor.Proofs.Coding
import SeqCursor.Proofs.TextAsArray
import SeqCursor.Proofs.Passage
import SeqCursor.Proofs.Addresses
import SeqCursor.Proofs.Faultless
import SeqCursor.Proofs.Slices
import SeqCursor.Proofs.Resumption
import SeqCursor.Proofs.Marks
import SeqCursor.Proofs.Loop
import SeqCursor.Proofs.Progress
import SeqCursor.Proofs.Termination
import SeqCursor.Proofs.FirstOccurrence
import SeqCursor.Proofs.Splitting
import SeqCursor.Proofs.Blocks
import SeqCursor.Proofs.Moves
import SeqCursor.Proofs.RepeatedSearch
import SeqCursor.Proofs.SingleReads
import SeqCursor.Proofs.Draining
import SeqCursor.Proofs.Log
import SeqCursor.Proofs.Ranges
import SeqCursor.Proofs.Writing
