import AudioMux.Box.Any
import AudioMux.Text.Words
import AudioMux.Sink.Probe
import AudioMux.Sink.SparseFile
import AudioMux.Table.Sample
import AudioMux.Table.Chunk
import AudioMux.Gapless
import AudioMux.Codec
import AudioMux.Tag.Table
import AudioMux.Tag.Name
import AudioMux.Tag.Value
import AudioMux.Tag.Numbering
import AudioMux.Muxer.Finalize
import AudioMux.Adts.Header
import AudioMux.Adts.Source
import AudioMux.Adts.Reader
import AudioMux.Settings.Printer
import AudioMux.Document.Toml.Parser
import AudioMux.Tag.Named
import AudioMux.Remux
import AudioMux.Files.Tree
import AudioMux.CommandLine.Program
import AudioMux.Main
import AudioMux.Proofs.Sink.SparseFile
import AudioMux.Proofs.Muxer.Agreement
import AudioMux.Proofs.Muxer.Lifecycle
import AudioMux.Proofs.Box.Decode.Movie
import AudioMux.Proofs.Remux.Stream
import AudioMux.Proofs.Box.Nesting
import AudioMux.Proofs.Muxer.MovieBox
import AudioMux.Proofs.Muxer.Description
import AudioMux.Proofs.Muxer.Interleaving
import AudioMux.Proofs.Checks.Sessions
import AudioMux.Proofs.Muxer.Gap
import AudioMux.Proofs.Muxer.MediaMove
import AudioMux.Proofs.Muxer.Offsets
import AudioMux.Proofs.Muxer.FailedAppend
import AudioMux.Proofs.MediaTime
import AudioMux.Proofs.Adts.Grammar
import AudioMux.Proofs.Adts.Positions
import AudioMux.Proofs.Muxer.Durations
import AudioMux.Proofs.Muxer.Windows
import AudioMux.Proofs.Muxer.TrackRun
import AudioMux.Proofs.Muxer.Bitrate
import AudioMux.Proofs.Muxer.Chunking
import AudioMux.Proofs.Tag.Read
import AudioMux.Proofs.Tag.Named
import AudioMux.Proofs.Muxer.Signals
import AudioMux.Proofs.Tag.Payload
import AudioMux.Proofs.Muxer.Patching
import AudioMux.Proofs.Muxer.DecoderInfo
import AudioMux.Proofs.Table.Runs
import AudioMux.Proofs.Table.Filling
