import Dialect.Config.Moment
import Dialect.Text.Quoted

-- Why a text gives no YAML value.

namespace Dialect.Host.Yaml

inductive Error where
  -- it is not YAML, or it asks for a value that this reader does not make
  | malformed
  -- a code that is no character
  | noCharacter
  -- a number that its tag promises and its text does not write
  | badWhole (base : Nat) (text : String)
  | badDouble (text : String)
  | noDigits
  -- a truth value that its tag promises and its text does not write
  | badTruth (text : String)
  -- a moment that its tag promises and its text does not write
  | noMoment
  -- a moment that no calendar has
  | badMoment (flaw : Moment.Flaw)
  -- a distance from universal time that is a day or more
  | badOffset (offset : Moment.Offset)
deriving DecidableEq, Repr

def Error.message : Error → String
  | malformed => "the text is not YAML"
  | noCharacter => "chr() arg not in range(0x110000)"
  | badWhole base text =>
    "invalid literal for int() with base " ++ toString base ++ ": " ++ Text.quoted (Text.of text)
  | badDouble text => "could not convert string to float: " ++ Text.quoted (Text.of text)
  | noDigits => "string index out of range"
  | badTruth text => Text.quoted (Text.of text)
  | noMoment => "the text is no date"
  | badMoment flaw => flaw.message
  | badOffset offset =>
    "offset must be a timedelta strictly between -timedelta(hours=24) and timedelta(hours=24), " ++
      "not " ++ Moment.differenceLiteral offset ++ "."

end Dialect.Host.Yaml
