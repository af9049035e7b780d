import StaticStorage.Word
import StaticStorage.Text.Hex
import StaticStorage.Text.Decimal
import StaticStorage.Handle
import StaticStorage.Signature.Element
import StaticStorage.Signature.Header
import StaticStorage.FieldFlags
import StaticStorage.Blob.Error
import StaticStorage.Blob.Cursor
import StaticStorage.Blob.Compressed
import StaticStorage.Blob.Request
import StaticStorage.Signature.Writer
import StaticStorage.Signature.Field
import StaticStorage.Module.Basic
import StaticStorage.Module.Declaration
import StaticStorage.Module.Marker
import StaticStorage.WordMap
import StaticStorage.Layout.Error
import StaticStorage.Layout.Block
import StaticStorage.Layout.Target
import StaticStorage.Layout.Slot
import StaticStorage.Layout.Basic
import StaticStorage.Layout.Packing
import StaticStorage.Cache.Basic
import StaticStorage.Cache.Worker
import StaticStorage.Document
import StaticStorage.Layout.Stored
import StaticStorage.Proofs.Packing.Packed
import StaticStorage.Proofs.Packing.Walk
import StaticStorage.Proofs.Packing.Blocks
import StaticStorage.Cache.Shared
import StaticStorage.Proofs.Cache.Steps
import StaticStorage.Proofs.Cache.Publication
import StaticStorage.Proofs.Cache.Serial
import StaticStorage.Cache.History
import StaticStorage.Proofs.Cache.Transparency
import StaticStorage.Proofs.Module.Rows
import StaticStorage.Proofs.Packing.Placements
import StaticStorage.Proofs.Packing.Fill
import StaticStorage.Proofs.Packing.Outcome
import StaticStorage.Proofs.Signature.Form
import StaticStorage.Proofs.Signature.Reading
import StaticStorage.Proofs.Packing.Exact
import StaticStorage.Proofs.Packing.Routing
import StaticStorage.Proofs.Packing.Alignment
import StaticStorage.Proofs.Module.Lasting
import StaticStorage.Proofs.Signature.Writing
import StaticStorage.Proofs.Packing.Renaming
import StaticStorage.Proofs.Packing.Agreement
import StaticStorage.Proofs.Packing.Reordering
import StaticStorage.Proofs.Layout.ReadBack
import StaticStorage.Proofs.Blob.Integers
import StaticStorage.Proofs.Blob.Handles
import StaticStorage.Proofs.Blob.Locality
import StaticStorage.Proofs.Signature.Truncation
import StaticStorage.Proofs.Signature.Fault
import StaticStorage.Proofs.Module.Additions
import StaticStorage.Proofs.Packing.Appending
import StaticStorage.Proofs.Packing.Delay
import StaticStorage.Proofs.Signature.Finishing
import StaticStorage.Proofs.Cache.WarmUp
import StaticStorage.Proofs.Cache.Convergence
import StaticStorage.Proofs.Layout.Views
import StaticStorage.Proofs.Module.Separation
import StaticStorage.Proofs.Module.Attributes
import StaticStorage.Proofs.Blob.Runs
import StaticStorage.Proofs.Blob.Codes
import StaticStorage.Proofs.Packing.Classification
