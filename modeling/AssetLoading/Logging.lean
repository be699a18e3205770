/-! # Log output

  The library writes log lines, each with a level, a message and named values.
  A program decides where they go by installing a sink, once. Installing a
  second one is a mistake, unless it is done only in case there is none.
-/

namespace AssetLoading

/-! ### Log lines -/

/-- How important a log line is. -/
inductive Level where
  | trace
  | debug
  | warn
  | error
deriving DecidableEq, Repr, Inhabited

/-- A value in a log line. -/
inductive Field where
  | text (value : String)
  | number (value : Int)
deriving DecidableEq, Repr, Inhabited

/-! ### Where they go -/

/-- The least important level that is shown when nothing else is asked for. -/
def defaultLogFilter : String :=
  "info"

/-- Where log lines go. -/
inductive LogSink where
  /-- Nowhere. -/
  | absent
  /-- To a sink. -/
  | installed
deriving DecidableEq, Repr, Inhabited

/-- Install a sink; `none` if there is one already. -/
def LogSink.install : LogSink → Option LogSink
  | absent => some installed
  | installed => none

/-- Install a sink unless there is one; whether this call did. -/
def LogSink.tryInstall (s : LogSink) : Bool × LogSink :=
  match s.install with
  | some s => (true, s)
  | none => (false, s)

end AssetLoading
