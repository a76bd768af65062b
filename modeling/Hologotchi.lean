import Hologotchi.Library.Runs
import Hologotchi.Library.Stretches
import Hologotchi.Touch.Classifier
import Hologotchi.Touch.Specification
import Hologotchi.Touch.Handlers
import Hologotchi.Touch.Refinement
import Hologotchi.Touch.Glitches
import Hologotchi.Touch.Holds
import Hologotchi.Touch.Levels
import Hologotchi.Library.FlatJson
import Hologotchi.Library.Layers
import Hologotchi.Protocol
import Hologotchi.Affect
import Hologotchi.Library.Saturating
import Hologotchi.Affect.Dynamics
import Hologotchi.Affect.Bounds
import Hologotchi.Affect.Cadence
import Hologotchi.Affect.Neglect
import Hologotchi.Presence.Report
import Hologotchi.Body.Model
import Hologotchi.Body.History
import Hologotchi.Body.Inertia
import Hologotchi.Body.Rested
import Hologotchi.Library.Lines
import Hologotchi.Inputs
import Hologotchi.Touch.InputFrame
import Hologotchi.Uplink.Client
import Hologotchi.Uplink.Framing
import Hologotchi.Library.Expiring
import Hologotchi.Presence.Mailbox
import Hologotchi.Presence.Log
import Hologotchi.Presence.Tracker
import Hologotchi.Presence.Wake
import Hologotchi.Presence.History
import Hologotchi.Presence.Jealousy
import Hologotchi.Library.Rounding
import Hologotchi.Doubles
import Hologotchi.Presence.Expiry
import Hologotchi.Library.Transitions
import Hologotchi.Presence.Coalescing
import Hologotchi.Connection.Model
import Hologotchi.Connection.Ownership
import Hologotchi.Connection.Wire
import Hologotchi.Device.Model
import Hologotchi.Device.Touches
import Hologotchi.Library.RunLength
import Hologotchi.Sprite.Decoder
import Hologotchi.Sprite.Encoder
import Hologotchi.Sprite.RoundTrip
import Hologotchi.Contract
import Hologotchi.Firmware.Behavior
import Hologotchi.Firmware.Stream
import Hologotchi.Firmware.Downlink
import Hologotchi.Firmware.FlatDecoder
import Hologotchi.Firmware.Text
import Hologotchi.Firmware.Soundness
import Hologotchi.PetLoop.Model
import Hologotchi.PetLoop.Frames
import Hologotchi.PetLoop.Coherence
import Hologotchi.PetLoop.Alerts
import Hologotchi.Library.Spaced
import Hologotchi.Library.Spans
import Hologotchi.Library.Splice
import Hologotchi.PetLoop.Novelty
import Hologotchi.Library.Words
import Hologotchi.Library.Like
import Hologotchi.Memory.Tags
import Hologotchi.Library.Table
import Hologotchi.Memory.Store
import Hologotchi.Memory.Recalls
import Hologotchi.Memory.Reflection
import Hologotchi.Memory.Keys
import Hologotchi.Library.Ranking
import Hologotchi.Memory.Retrieval
import Hologotchi.Memory.Forgetting
import Hologotchi.PetLoop.Moments
import Hologotchi.PetLoop.MemoryStep
import Hologotchi.PetLoop.Milestones
import Hologotchi.PetLoop.Persistence
import Hologotchi.PetLoop.BurnIn
import Hologotchi.Library.Locking
import Hologotchi.Memory.PetState
import Hologotchi.Memory.Pausing
import Hologotchi.Memory.Invariant
import Hologotchi.Memory.Meaning
import Hologotchi.Library.Raising
import Hologotchi.Control.Server
import Hologotchi.Control.Fields
import Hologotchi.Control.Submissions
import Hologotchi.Control.Requests
import Hologotchi.Control.PresenceTtl
import Hologotchi.Library.Predictive
import Hologotchi.Png.Reader
import Hologotchi.Png.Filters
import Hologotchi.Sprite.Safety
import Hologotchi.Library.Streaks
import Hologotchi.Presence.Debouncer
import Hologotchi.Library.Portions
import Hologotchi.PetLoop.Waiting
import Hologotchi.Library.Recent
import Hologotchi.Render.Frames
import Hologotchi.Render.Poses
import Hologotchi.Render.Scene
import Hologotchi.Render.Bubble
import Hologotchi.Motion.Canvas
import Hologotchi.Motion.Compositing
import Hologotchi.Motion.Derive
import Hologotchi.Motion.Sheet
import Hologotchi.Motion.Walk
import Hologotchi.Ollama
import Hologotchi.Encoding
import Hologotchi.Library.Scan
import Hologotchi.Display.Chip
import Hologotchi.Display.Driver
import Hologotchi.Display.Commands
import Hologotchi.Display.Pixels
import Hologotchi.Display.Flush
import Hologotchi.Display.Shown
import Hologotchi.Sprite.Placing
import Hologotchi.Display.Drawing
import Hologotchi.Device.Screen
import Hologotchi.Library.Records
import Hologotchi.Png.Container
import Hologotchi.Png.Chunks
import Hologotchi.Png.Rows
import Hologotchi.Png.Files
import Hologotchi.Png.Writing
import Hologotchi.Motion.Composing
import Hologotchi.Motion.Files
import Hologotchi.Motion.Shown
import Hologotchi.Control.Poster
import Hologotchi.Connection.Arrival
import Hologotchi.Device.Pipeline
import Hologotchi.PetLoop.Restarts
import Hologotchi.Device.Orders
