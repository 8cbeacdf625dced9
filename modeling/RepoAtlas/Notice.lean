/-!
# `RepoAtlas.Notice`: what a run tells about itself

A notice has a level and a topic, the part of the program that gives it. Runs tell notices from
informative ones on; on demand they tell details too.
-/

set_option autoImplicit false

namespace RepoAtlas

/-- How much a notice matters. -/
inductive Level where
  | debug
  | info
  | warning
  deriving DecidableEq, Repr

/-- The word for a level. -/
def Level.word : Level → String
  | .debug => "DEBUG"
  | .info => "INFO"
  | .warning => "WARNING"

/-- The part of the program that gives a notice. -/
inductive Topic where
  | detector
  | overrides
  | walker
  deriving DecidableEq, Repr

/-- The full name of a channel of notices; all channels belong to one. -/
def channelName (topic : String) : String :=
  if topic = "" then "modgraph" else "modgraph." ++ topic

/-- The name of a topic's channel. -/
def Topic.channel : Topic → String
  | .detector => channelName "detector"
  | .overrides => channelName "overrides"
  | .walker => channelName "walker"

/-- Something that a run tells about itself. -/
structure Notice where
  level : Level
  topic : Topic
  text : String
  deriving DecidableEq, Repr

/-- Whether a notice is told, given whether details are asked for. -/
def Notice.isTold (notice : Notice) (verbose : Bool) : Bool :=
  verbose || notice.level ≠ .debug

/-- A notice as a console shows it. -/
def Notice.consoleLine (notice : Notice) : String :=
  s!"[modgraph] {notice.level.word} {notice.text}\n"

/-- A notice as a log file keeps it, with the time at which it was given. -/
def Notice.logLine (notice : Notice) (time : String) : String :=
  s!"{time} {notice.level.word} {notice.topic.channel}: {notice.text}\n"

end RepoAtlas
