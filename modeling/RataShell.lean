import RataShell.Lib.Machine
import RataShell.Lib.Waiting
import RataShell.Lib.Feed
import RataShell.Lib.Scan
import RataShell.Lib.Intern
import RataShell.Lib.Framing
import RataShell.Lib.Records
import RataShell.Lib.Mailbox
import RataShell.Lib.Utf8
import RataShell.Lib.Ledger
import RataShell.Lib.Block
import RataShell.Lib.Grid
import RataShell.Lib.Rounding
import RataShell.Lib.Reader
import RataShell.Lib.HandleTable
import RataShell.Session.State
import RataShell.Session.Step
import RataShell.Session.Moves
import RataShell.Session.Phases
import RataShell.Session.Exit
import RataShell.Session.ExitCode
import RataShell.Session.Drop
import RataShell.Session.Deadlock
import RataShell.Session.ExitDrop
import RataShell.Session.Stream
import RataShell.Session.Delivery
import RataShell.Session.Flow
import RataShell.Session.Keymap
import RataShell.Session.Writer
import RataShell.Session.Flush
import RataShell.Session.Render
import RataShell.Session.Locks
import RataShell.Session.Size
import RataShell.Session.Resize
import RataShell.Session.StartFailure
import RataShell.Session.Starts
import RataShell.Session.Runs
import RataShell.Session.Stages
import RataShell.Session.Restart
import RataShell.Session.StartRace
import RataShell.Control.Lifecycle
import RataShell.Term.Cell
import RataShell.Term.Alacritty
import RataShell.Term.Points
import RataShell.Term.Host
import RataShell.Term.Plain
import RataShell.Term.Search
import RataShell.Term.Hyperlink
import RataShell.Term.Backend
import RataShell.Term.DirtyRows
import RataShell.Term.Freshness
import RataShell.Session.Concurrent
import RataShell.Term.Viewport
import RataShell.Term.Progress
import RataShell.Term.Osc7
import RataShell.Term.WorkingDirectory
import RataShell.Control.Text
import RataShell.Control.Input
import RataShell.Control.Mouse
import RataShell.Control.Messages
import RataShell.Control.Parts
import RataShell.Control.Clicks
import RataShell.Control.Geometry
import RataShell.Control.Remembered
import RataShell.Control.Paste
import RataShell.Control.LiveEdge
import RataShell.Control.CodeUnits
import RataShell.Control.MouseProtocol
import RataShell.Control.Typing
import RataShell.Control.Gates
import RataShell.Control.ExitMessages
import RataShell.Control.Title
import RataShell.Control.Painter
import RataShell.Control.Cursor
import RataShell.Control.CursorShapes
import RataShell.Control.Capture
import RataShell.Control.RenderEvent
import RataShell.Control.RenderMessages
import RataShell.Control.Screen
import RataShell.Control.CatchUp
import RataShell.Control.Threads
import RataShell.Control.PaintRuns
import RataShell.Control.CellText
import RataShell.Control.HyperlinkOverlay
import RataShell.Control.MouseCell
import RataShell.Control.ScrollBar
import RataShell.Control.Paint
import RataShell.Control.Repaint
import RataShell.Control.KeyPresses
import RataShell.Control.InputStream
import RataShell.Control.SgrReport
import RataShell.Pty.Spawn
import RataShell.Pty.Handles
import RataShell.Ffi.Environment
import RataShell.Ffi.Getters
import RataShell.Ffi.LastError
import RataShell.Ffi.CommandLine
import RataShell.Ffi.Loader
