import ScriptLink.Content

/-!
# Export slots

The place for a module's content, which is written once. A second write is refused and leaves
the first in place.
-/

namespace ScriptLink

/-- The place for a module's content. -/
inductive Slot where
  | empty
  | sealed (content : Content)
  deriving Repr

namespace Slot

/-- The content, once there is one. -/
def get? : Slot → Option Content
  | empty => none
  | sealed content => some content

def isSealed : Slot → Bool
  | empty => false
  | sealed _ => true

/-- Writes the content; none if the slot has been written before. -/
def seal? : Slot → Content → Option Slot
  | empty, content => some (sealed content)
  | sealed _, _ => none

theorem seal?_eq_none_iff {slot : Slot} {content : Content} :
    slot.seal? content = none ↔ slot.isSealed = true := by
  cases slot <;> simp [seal?, isSealed]

theorem get?_of_seal? {slot after : Slot} {content : Content}
    (h : slot.seal? content = some after) : after.get? = some content := by
  cases slot with
  | empty => simp only [seal?, Option.some.injEq] at h; subst h; rfl
  | sealed _ => simp [seal?] at h

end Slot

end ScriptLink
