import LiveNotes.Query.Parser
import LiveNotes.Settings.Function
import LiveNotes.Settings.Storage
import LiveNotes.Store.Source

/-!
Why a command fails, with the message that is printed for it.
-/

namespace LiveNotes

/-- Why a command fails. -/
inductive CommandError where
  | query (e : QueryError)
  | source (e : SourceError)
  | settings (e : SettingsError)
  | function (e : FunctionError)
  | input (e : FileError)
  | noInput
  | noValue (text : String)
  | unknownCategory (name : String)

/-- The message of an error. -/
def CommandError.message : CommandError → String
  | .query e => "parse error: " ++ e.message
  | .source e => e.message
  | .settings e => e.message
  | .function e => e.message
  | .input e => "IO error: " ++ e.message
  | .noInput => "no query provided, pass one as an argument or pipe it to stdin"
  | .noValue text => "'" ++ text ++ "' has no value"
  | .unknownCategory name =>
    "unknown category: '" ++ name ++ "'\nRun 'livevars docs' to see available categories."

end LiveNotes
