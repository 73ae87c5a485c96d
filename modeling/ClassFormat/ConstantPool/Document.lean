import ClassFormat.ConstantPool.Basic

/-!
# The debug text of a pool

A pool is shown with all its slots; an empty one is shown as unusable.

* `slotDocument` — a slot: the constant in it, or the word for an empty one.
* `document` — the slots in order.  Their indices are not shown, and neither is the count.
-/

set_option autoImplicit false

namespace ClassFormat
namespace ConstantPool

open Document

/-- The debug text of a slot, as a document. -/
def slotDocument : Option Constant → Document
  | some c => c.document
  | none => leaf "Unusable"

/-- The debug text of a pool, as a document. -/
def document (pool : ConstantPool) : Document :=
  group (.record "ConstantPool")
    [field "cp_infos" (group .list (pool.slots.toList.map slotDocument))]

end ConstantPool
end ClassFormat
