import WebhookTrader.Common.Replace
import WebhookTrader.Persistence.Model.StateFile
import WebhookTrader.Webhook.Model.Parser

/-!
# Writing the state file

`atomic_write` on `state.json`, `state.json.tmp` and `state.json.bak`, as
texts: the replacement of a file through a temporary one, where a text
passes the check if it parses and has a balance. The JSON library's
parser is a parameter, and so is the text `dump` makes of the document.
-/

namespace WebhookTrader

/-- **`state.json`, `state.json.tmp` and `state.json.bak`.** -/
abbrev StateTexts := Files UInt8

namespace StateTexts

variable (parse : Text → Option Json)

/-- What `try_load_file` finds under a path. -/
def file : Option Text → StateFile
  | none => .missing
  | some text =>
      match parse text with
      | none => .corrupt
      | some j => .document j

/-- The file and its backup. -/
def disk (files : StateTexts) : StateDisk := ⟨file parse files.main, file parse files.backup⟩

/-- `load_state`. -/
def loadState (files : StateTexts) : LoadedState := (disk parse files).load

/-- The second step's validation: what was written parses and has a
balance. -/
def verify (text : Text) : Bool := (parse text).any fun j => j.contains "balance"

/-- **`atomic_write` under way**, from some files. -/
def atomicWrite (text : Text) (files : StateTexts) :
    System (Replace.State UInt8) Replace.Outcome :=
  Replace.system (verify parse) text files

end StateTexts

end WebhookTrader
