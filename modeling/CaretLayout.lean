import CaretLayout.Main
import CaretLayout.Proofs.Cursor.Lexer
import CaretLayout.Proofs.Switchboard.Isolation
import CaretLayout.Proofs.Switchboard.LoopRun
import CaretLayout.Proofs.Switchboard.Prompt
import CaretLayout.Proofs.Switchboard.Settled
import CaretLayout.Proofs.Cursor.LineByLine
import CaretLayout.Proofs.Cursor.Window
import CaretLayout.Proofs.Switchboard.SamePlace
import CaretLayout.Proofs.Host.Reader
import CaretLayout.Proofs.Agent.Lifecycle
import CaretLayout.Proofs.Switchboard.Latest
import CaretLayout.Proofs.Host.Object
import CaretLayout.Proofs.Agent.Framing
import CaretLayout.Proofs.Host.Output
import CaretLayout.Proofs.Dispatch.Debouncer
import CaretLayout.Proofs.Switchboard.Consistent
import CaretLayout.Proofs.Agent.Delivery
import CaretLayout.Proofs.Dispatch.EdgeTrigger
import CaretLayout.Proofs.Switchboard.Quiet
import CaretLayout.Proofs.Dispatch.Fates
import CaretLayout.Proofs.Agent.FanOut
import CaretLayout.Proofs.Cursor.Markers
import CaretLayout.Proofs.Cursor.Widening
import CaretLayout.Proofs.Cursor.Columns
import CaretLayout.Proofs.Cursor.Unseen
import CaretLayout.Proofs.Cursor.Blank
import CaretLayout.Proofs.Switchboard.Deadlines
import CaretLayout.Proofs.Dispatch.Off
import CaretLayout.Proofs.Agent.Reply
import CaretLayout.Proofs.Agent.Listing
import CaretLayout.Proofs.Host.Redaction
import CaretLayout.Proofs.Cursor.LineEnds
import CaretLayout.Proofs.Agent.Inventory
import CaretLayout.Proofs.Marker.Table
import CaretLayout.Proofs.Toml.DistinctKeys
import CaretLayout.Proofs.Toml.Decode
import CaretLayout.Proofs.Config.Load
import CaretLayout.Proofs.Cursor.Stored
import CaretLayout.Proofs.Emulator.Launched
