/-
**Settings from the environment.** Each variable sets one setting; they are looked at in a fixed
order.
-/
import Transcode.Decimal.Reader
import Transcode.Settings.Change

namespace Transcode

/-- The variables of the environment with their values. -/
abbrev Environment := List (String × String)

namespace Environment

/-- Reads a number, around which blanks are ignored. -/
def readCount (setting text : String) (make : Nat → Change) : Except ConfigError Change :=
  Change.reading setting text make NumberError.message (Number.word? (Blank.trim text).toList)

/-- Reads a duration, around which blanks are ignored. -/
def readSeconds (text : String) : Except ConfigError Change :=
  Change.reading "split.segment_time" text .segmentTime FloatError.message
    (Decimal.read (Blank.trim text))

/-- The variables, each with the change that its value stands for. -/
def readers : List (String × (String → Except ConfigError Change)) :=
  [("CHUNKSTITCH_WORKSPACE", fun text => .ok (.workspace text)),
    ("CHUNKSTITCH_CONCURRENCY", fun text => readCount "pipeline.concurrency" text .concurrency),
    ("CHUNKSTITCH_WRITE_POLICY", Change.readPolicy),
    ("CHUNKSTITCH_CODEC", Change.readBackend),
    ("CHUNKSTITCH_FRAME_SIZE", fun text => readCount "codec.frame_size" text .frameSize),
    ("CHUNKSTITCH_FFMPEG", fun text => .ok (.segmenter text)),
    ("CHUNKSTITCH_SEGMENT_TIME", readSeconds),
    ("CHUNKSTITCH_LOG_LEVEL", fun text => .ok (.logLevel text)),
    ("CHUNKSTITCH_LOG_FORMAT", Change.readLogFormat)]

/-- What the environment changes. -/
def layer (environment : Environment) : Layer :=
  .ofResults (readers.filterMap fun (name, read) => (environment.lookup name).map read)

end Environment

end Transcode
