import LuaChunk.Encode
import LuaChunk.Decode.Reader
import LuaChunk.Main
import LuaChunk.Proofs.Inverse
import LuaChunk.Proofs.Literal.Unquote
import LuaChunk.Proofs.Decode.Scan
import LuaChunk.Proofs.Decode.Depth
import LuaChunk.Proofs.Decode.Truncation
import LuaChunk.Proofs.Decode.Refusal
import LuaChunk.Proofs.Decode.Reader
import LuaChunk.Proofs.Text
import LuaChunk.Proofs.Sink
import LuaChunk.Proofs.Listing.Success
import LuaChunk.Proofs.Listing.Lines
import LuaChunk.Proofs.Listing.FirstFault
import LuaChunk.Proofs.Listing.LineFeeds
import LuaChunk.Proofs.Listing.Likeness
import LuaChunk.Proofs.Listing.Faithful
import LuaChunk.Proofs.Listing.Preservation
import LuaChunk.Proofs.Command.Constants
import LuaChunk.Proofs.Encode.Reproduction
import LuaChunk.Proofs.Literal.Boundary
import LuaChunk.Proofs.Literal.Position
import LuaChunk.Proofs.Literal.Rescan
import LuaChunk.Proofs.Number.Integer
import LuaChunk.Proofs.Encode.Items
import LuaChunk.Proofs.Decode.Cost
import LuaChunk.Proofs.Decode.Payment
import LuaChunk.Proofs.Decode.Amplification
import LuaChunk.Proofs.Double.Integer
import LuaChunk.Proofs.Number.Stored
import LuaChunk.Proofs.Printing
import LuaChunk.Proofs.Identifier
import LuaChunk.Proofs.LineBuffer
import LuaChunk.Proofs.FieldSequence
