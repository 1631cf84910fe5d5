import Duplex.Fault
import Duplex.Signal
import Duplex.Pcm.Sample
import Duplex.Pcm.Bytes
import Duplex.Pcm.Layout
import Duplex.Region
import Duplex.ByteRing
import Duplex.Buffer.Channel
import Duplex.Buffer.Dual
import Duplex.Filter.Splitting
import Duplex.Resample.Fourier
import Duplex.Resample.Bank
import Duplex.Resample.Adapter
import Duplex.Settings
import Duplex.Error
import Duplex.Buffer.Subband
import Duplex.Engine.Bypass
import Duplex.Engine.Scripted
import Duplex.Workshop
import Duplex.Stats
import Duplex.Intake
import Duplex.Lane
import Duplex.Context
import Duplex.Operation
import Duplex.Proofs.Checked
import Duplex.Proofs.Signal
import Duplex.Proofs.Pcm
import Duplex.Proofs.Rounding
import Duplex.Proofs.ByteRing
import Duplex.Proofs.Buffer
import Duplex.Proofs.Splitting
import Duplex.Proofs.Subband
import Duplex.Proofs.Lane
import Duplex.Proofs.Adapter
import Duplex.Proofs.Spectral
import Duplex.Proofs.Intake
import Duplex.Proofs.Conversion
import Duplex.Proofs.Session
import Duplex.Proofs.Opening
import Duplex.Proofs.Context
import Duplex.Proofs.Rates
import Duplex.Proofs.References
import Duplex.Proofs.Refusals
import Duplex.Proofs.Streaming
import Duplex.Proofs.Balances
import Duplex.Proofs.Copying
import Duplex.Proofs.PassThrough
import Duplex.Proofs.Playing
import Duplex.Proofs.Chunking
import Duplex.Proofs.Histories
import Duplex.Proofs.Silence
import Duplex.Proofs.Switching
import Duplex.Proofs.Seamless
import Duplex.Proofs.Guarded
import Duplex.Proofs.Queue
import Duplex.Proofs.Journal
import Duplex.Proofs.Accounts
import Duplex.Proofs.Fitting
import Duplex.Proofs.Crew
import Duplex.Proofs.Turns
import Duplex.Proofs.Feeding
import Duplex.Proofs.Staffing
import Duplex.Proofs.Protocol
import Duplex.Proofs.Content
import Duplex.Proofs.Composition
import Duplex.Proofs.Memory
import Duplex.Proofs.Sparing
import Duplex.Proofs.Twins
import Duplex.Proofs.Channels
import Duplex.Proofs.Rounds
import Duplex.Proofs.Failures
import Duplex.Proofs.Levels
import Duplex.Proofs.Resampling
import Duplex.Proofs.Draining
import Duplex.Proofs.Moving
import Duplex.Proofs.Wiring
import Duplex.Proofs.Backlog
import Duplex.Proofs.Pacing
import Duplex.Proofs.Progress
import Duplex.Proofs.Steadiness
import Duplex.Proofs.Agreement
import Duplex.Proofs.Isolation
import Duplex.Proofs.Batches
import Duplex.Proofs.Farend
import Duplex.Proofs.Runs
import Duplex.Proofs.Resampler
import Duplex.Proofs.Feeder
import Duplex.Proofs.Copies
import Duplex.Proofs.Window
import Duplex.Proofs.Allpass
import Duplex.Proofs.Cuts
import Duplex.Proofs.Polyphase
import Duplex.Proofs.Bank
import Duplex.Proofs.Depot
import Duplex.Proofs.Clearing
import Duplex.Proofs.Transfer
import Duplex.Proofs.Energy
import Duplex.Proofs.Separation
import Duplex.Proofs.Usage
import Duplex.Proofs.Callbacks
import Duplex.Proofs.Views
import Duplex.Proofs.Cells
import Duplex.Proofs.Stereo
import Duplex.Proofs.Remapping
import Duplex.Proofs.ByteCodec
import Duplex.Proofs.Reuse
