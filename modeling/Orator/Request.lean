import Orator.Engine
import Orator.Text.Lossy
import Orator.Text.Markup

/-! What the host asks to have spoken. -/

namespace Orator

inductive MessageKind where
  | text | char | key | soundIcon | spell
deriving DecidableEq, Repr

def MessageKind.name : MessageKind → String
  | text => "text"
  | char => "char"
  | key => "key"
  | soundIcon => "sound_icon"
  | spell => "spell"

structure Request where
  payload : List UInt8
  kind : MessageKind := .text
  prosody : Prosody := {}
deriving DecidableEq, Repr

namespace Request

/-- The payload as text; what is no UTF-8 in it is replaced. -/
def text (r : Request) : String :=
  String.ofList (Text.decodeLossy r.payload)

/-- The host's name for the space character. -/
def spaceToken : String := "space"

/-- What an engine gets to utter: prose without its markup, a single character, or a key by its name.
    Sound icons and spelled words are not uttered at all. -/
def speech? (r : Request) : Option Speech :=
  match r.kind with
  | .text => some (.prose (String.ofList (Text.stripMarkup r.text.toList)))
  | .char => some (.character (if r.text = spaceToken then " " else r.text))
  | .key => some (.prose r.text)
  | .soundIcon | .spell => none

end Request

end Orator
