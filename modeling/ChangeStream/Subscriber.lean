import ChangeStream.Text.Quoted

/-!
# Settings of the log subscriber

A process has one subscriber that writes the log. Its settings are chosen before it is installed;
once one is installed, later ones are refused.
-/

namespace ChangeStream

/-- Settings of the subscriber. -/
structure SubscriberSettings where
  level : String
  json : Bool
  threadNames : Bool
  target : Bool
  testWriter : Bool
deriving DecidableEq

namespace SubscriberSettings

/-- The informative level, with thread names and targets, as plain text. -/
def standard : SubscriberSettings :=
  { level := "info", json := false, threadNames := true, target := true, testWriter := false }

/-- The settings for tests: more is written, and to where a test can catch it. -/
def testing : SubscriberSettings :=
  { standard with level := "debug", testWriter := true }

/-- The text of a truth value. -/
def flag (b : Bool) : String := if b then "true" else "false"

/-- The settings as a text that names every field. -/
def text (settings : SubscriberSettings) : String :=
  "TracingBuilder \x7b level: " ++ Text.quoted settings.level ++ ", json: " ++ flag settings.json ++
    ", thread_names: " ++ flag settings.threadNames ++ ", target: " ++ flag settings.target ++
    ", test_writer: " ++ flag settings.testWriter ++ " \x7d"

/-- Installs the settings unless some are installed already. -/
def install (settings : SubscriberSettings) (installed : Option SubscriberSettings) :
    Bool × Option SubscriberSettings :=
  match installed with
  | none => (true, some settings)
  | some first => (false, some first)

end SubscriberSettings

end ChangeStream
