/-
**Checking a finished stream**: it is decoded, and the media is compared with the raw chunks of its
source, octet by octet.
-/
import Transcode.Json.Basic
import Transcode.Studio.Basic

namespace Transcode

/-- How decoded media lines up with what it should be. -/
structure Comparison where
  expectedBytes : Nat
  decodedBytes : Nat
  /-- The position of the first difference. -/
  firstMismatch : Option Nat
  deriving DecidableEq, Repr

namespace Comparison

/-- The comparison of two byte strings. Where one ends, it differs from a longer one. -/
def between (expected decoded : Bytes) : Comparison where
  expectedBytes := expected.length
  decodedBytes := decoded.length
  firstMismatch := (Bytes.firstDifference? expected decoded).or (
    if expected.length = decoded.length then none
    else some (min expected.length decoded.length))

/-- Whether there is no difference. -/
def isMatch (comparison : Comparison) : Bool :=
  comparison.firstMismatch.isNone

/-- The comparison in structured form. -/
def toJson (comparison : Comparison) : Json :=
  .object [
    ("expected_bytes", .nat comparison.expectedBytes),
    ("decoded_bytes", .nat comparison.decodedBytes),
    ("first_mismatch", .ofOption .nat comparison.firstMismatch),
    ("matches", .bool comparison.isMatch)]

end Comparison

namespace Studio

variable (studio : Studio)

/-- Decodes a finished stream. -/
def decode (stream : Bitstream) (site : Site) : Except RunError RawMedia × Site :=
  let (answer, site) := studio.engineAnswer (.decode stream) site
  (answer.mapError fun error => .internal (.decodeFailed error), site)

/-- Compares media with the first chunks of a source. -/
def compare (media : RawMedia) (source : String) (count : Nat) (site : Site) :
    Except RunError Comparison :=
  match studio.chunks.split source count site.disk with
  | .error error => .error (.split error)
  | .ok chunks => .ok (.between (chunks.flatMap RawChunk.data) media)

end Studio

end Transcode
