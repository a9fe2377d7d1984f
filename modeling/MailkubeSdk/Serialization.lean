import MailkubeSdk.Python.Codecs
import MailkubeSdk.Transport

/-
Rendering Python values for the wire.

Nothing here validates.  A value of another shape than the declared one makes
the interpreter raise where it is taken apart.
-/

namespace MailkubeSdk

open Python

def toIso (runtime : Runtime) : Value → Except Builtin Str
  | .datetime value => .ok value.isoformat
  | value => runtime.str value

/-- `query_value`: a list becomes one comma-separated value. -/
def queryValue (runtime : Runtime) : Value → Except Builtin Str
  | .list elements => do
      let parts ← elements.mapM (toIso runtime)
      .ok ((str ",").intercalate parts)
  | value => toIso runtime value

def contentKey : Str := str "content"

/-- A copy of the attachment, its raw content base64-encoded. -/
def encodeAttachment : Value → Except Builtin Value
  | .dict item =>
      match Items.get item contentKey with
      | some (.bytes octets) =>
          .ok (.dict (Items.set item contentKey (.str (Codecs.b64encode octets))))
      | _ => .ok (.dict item)
  | _ => .error .typeError

theorem encodeAttachment_octets {items : Items Str Value} {octets : Bytes}
    (found : items.get contentKey = some (.bytes octets)) :
    encodeAttachment (.dict items) =
      .ok (.dict (items.set contentKey (.str (Codecs.b64encode octets)))) := by
  rw [encodeAttachment, found]

theorem encodeAttachment_plain {items : Items Str Value}
    (plain : ∀ octets, items.get contentKey ≠ some (.bytes octets)) :
    encodeAttachment (.dict items) = .ok (.dict items) := by
  rw [encodeAttachment]
  split
  · rename_i octets found
    exact absurd found (plain octets)
  · rfl

def encodeAttachments : Value → Except Builtin Value
  | .list attachments => do
      let encoded ← attachments.mapM encodeAttachment
      .ok (.list encoded)
  | _ => .error .typeError

end MailkubeSdk
