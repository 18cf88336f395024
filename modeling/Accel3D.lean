import Accel3D.Chip.Call
import Accel3D.Chip.Command
import Accel3D.Chip.Config
import Accel3D.Chip.Draw
import Accel3D.Chip.Linear
import Accel3D.Chip.State
import Accel3D.Color
import Accel3D.Combine
import Accel3D.Dither
import Accel3D.Frame.Buffer
import Accel3D.Frame.Fill
import Accel3D.Frame.Fog
import Accel3D.Frame.Layout
import Accel3D.Linear.Pixels
import Accel3D.Main
import Accel3D.Memory
import Accel3D.ModeCache
import Accel3D.Pixel.Counters
import Accel3D.Pixel.Depth
import Accel3D.Pixel.Pipeline
import Accel3D.Pixel.Rules
import Accel3D.Pixel.Shade
import Accel3D.Proofs.Codec
import Accel3D.Proofs.Deferral
import Accel3D.Proofs.Format
import Accel3D.Proofs.History
import Accel3D.Proofs.HostSide
import Accel3D.Proofs.ModeCache
import Accel3D.Proofs.Reader
import Accel3D.Proofs.Run
import Accel3D.Proofs.Shape
import Accel3D.Proofs.Snapshot
import Accel3D.Reciprocal
import Accel3D.Reciprocal.Table
import Accel3D.Register.Access
import Accel3D.Register.Mode
import Accel3D.Register.Name
import Accel3D.Register.Number
import Accel3D.Replay.CommandLine
import Accel3D.Replay.Config
import Accel3D.Replay.Image
import Accel3D.Replay.Run
import Accel3D.Revision
import Accel3D.Setup
import Accel3D.Single
import Accel3D.Single.Decimal
import Accel3D.Snapshot.Codec
import Accel3D.Snapshot.Format
import Accel3D.Text.Blank
import Accel3D.Text.Numeral
import Accel3D.Texture.Ncc
import Accel3D.Texture.Params
import Accel3D.Texture.Sample
import Accel3D.Texture.Unit
import Accel3D.Toml.Document
import Accel3D.Toml.Scalar
import Accel3D.Toml.Text
import Accel3D.Toml.Value
import Accel3D.Trace.Command
import Accel3D.Trace.Error
import Accel3D.Trace.Literal
import Accel3D.Trace.Reader
import Accel3D.Triangle.Gradient
import Accel3D.Triangle.Parameter
import Accel3D.Triangle.Raster
import Accel3D.Triangle.Span
import Accel3D.Word
import Accel3D.WriteQueue
import Accel3D.Proofs.Display
import Accel3D.Proofs.Swap
import Accel3D.Proofs.Buffers
import Accel3D.Proofs.Conservation
import Accel3D.Proofs.Derived.Frame
import Accel3D.Proofs.Derived.Eager
import Accel3D.Proofs.ChipSelect
import Accel3D.Proofs.FlatTriangle
import Accel3D.Proofs.DepthOrder
import Accel3D.Proofs.LinearPaths
import Accel3D.Proofs.Overdraw
import Accel3D.Proofs.TraceText
import Accel3D.Proofs.LaterBits
import Accel3D.Proofs.Collinear
import Accel3D.Proofs.DirectValues
import Accel3D.Proofs.PixelCentres
import Accel3D.Proofs.SpanSymmetry
import Accel3D.Proofs.Bilinear
import Accel3D.Proofs.FloatDepth
import Accel3D.Proofs.Reciprocal
import Accel3D.Proofs.Sampling
import Accel3D.Proofs.Interpolation
import Accel3D.Proofs.ReciprocalAccuracy
import Accel3D.Proofs.LevelOfDetail
import Accel3D.Proofs.ResidentLevels
import Accel3D.Proofs.Texels
import Accel3D.Proofs.LevelLayout
import Accel3D.Proofs.Uploads
import Accel3D.Proofs.UploadOrder
import Accel3D.Proofs.TextureSelect
import Accel3D.Proofs.DisplayStep
import Accel3D.Proofs.SyncedSwap
import Accel3D.Proofs.Placement
import Accel3D.Proofs.BusOrder
import Accel3D.Proofs.LinearBounds
import Accel3D.Proofs.LinearEcho
import Accel3D.Proofs.Ignored
import Accel3D.Proofs.SwapHistory
import Accel3D.Proofs.FilledRectangle
import Accel3D.Proofs.Primitive
import Accel3D.Proofs.StippleThread
import Accel3D.Proofs.DisabledTextures
import Accel3D.Proofs.CombineEquation
import Accel3D.Proofs.FixedPoint
import Accel3D.Proofs.ParameterForms
import Accel3D.Proofs.StateWrites
import Accel3D.Proofs.StripVertices
import Accel3D.Proofs.CacheMap
import Accel3D.Proofs.IntegerText
import Accel3D.Proofs.TraceLayout
import Accel3D.Proofs.UsableBuffers
import Accel3D.Proofs.Checked.Run
