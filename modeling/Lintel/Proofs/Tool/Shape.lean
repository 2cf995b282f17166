import Lintel.Json.Access
import Lintel.Proofs.Except

/-!
# Shapes of values

Looking into a value asks that it has some shape. For each way of looking, this is the exact shape that
is asked for, and what is found.

* `Fault.IsReported`: the faults that end up in the report of a tool; `Settles`, `Escapes`: a computation
  that fails with such faults only, and one that fails with others only;
* `IsNumber`, `IsFinite`: the type that a number may have, and its bounds;
* `get_eq_ok`, `getField_eq_ok`, `getObject_eq_ok`, `getElements_eq_ok`, `ends_getNumber`: the ways of
  looking into a value.
-/

namespace Lintel

/-- The fault says that a tool failed or that its output cannot be used. -/
def Fault.IsReported : Fault → Prop
  | .toolFailed .. | .badOutput .. => True
  | _ => False

/-- If the computation fails, a report can tell of it. -/
abbrev Settles {α : Type} (x : Except Fault α) : Prop := FailsOnlyWith Fault.IsReported x

/-- If the computation fails, no report tells of it. -/
abbrev Escapes {α : Type} (x : Except Fault α) : Prop :=
  FailsOnlyWith (fun fault => ¬ fault.IsReported) x

section Settles

variable {α β : Type} {fault : Fault} {x : Except Fault α} {f : α → Except Fault β}

theorem rejects_of_escapes {P : Fault → Prop} (h : Escapes x) :
    FailsOnlyWith (fun fault => fault.IsReported → P fault) x :=
  h.imp fun _ hfault hreported => absurd hreported hfault

theorem settles_error : Settles (.error fault : Except Fault α) ↔ fault.IsReported :=
  failsOnlyWith_error

theorem settles_bind : Settles (x >>= f) ↔ Settles x ∧ ∀ a, x = .ok a → Settles (f a) :=
  failsOnlyWith_bind

theorem Escapes.settles_iff (h : Escapes x) : Settles x ↔ Ends x := FailsOnlyWith.iff_ends h

theorem settles_mapM_bind {γ : Type} {as : List α} (hf : ∀ a, Escapes (f a)) {g : List β → γ} :
    (Settles do return g (← as.mapM f)) ↔ ∀ a ∈ as, Ends (f a) := by
  have hescapes : Escapes do return g (← as.mapM f) :=
    (FailsOnlyWith.mapM fun a _ => hf a).bind fun _ => failsOnlyWith_ok _
  rw [hescapes.settles_iff, ends_bind, ← ends_mapM]
  exact exists_congr fun bs => and_iff_left (ends_ok _)

end Settles

namespace Json

/-! ## What a value has to be -/

/-- The value is an object. -/
def isObject : Json → Bool
  | .obj _ => true
  | _ => false

/-- The value can be gone through. -/
def isListed : Json → Bool
  | .arr _ | .obj _ | .str _ => true
  | _ => false

/-- What a value holds that can be gone through. -/
def items : Json → List Json
  | .arr items => items
  | .obj members => members.map fun member => .str member.1
  | .str value => value.toList.map fun c => .str (String.singleton c)
  | _ => []

/-- The value is a number or a truth value, or a text that can be read as a whole number. -/
def IsNumber : Json → Prop
  | .bool _ | .int _ | .float _ => True
  | .str value => Ends (Number.readInteger value.toList)
  | _ => False

/-- The value is no number beyond all bounds, and not what stands for no number. -/
def IsFinite : Json → Prop
  | .float value => ∃ negative mantissa exponent, value = .finite negative mantissa exponent
  | _ => True

/-- The value stands for a whole number. -/
def IsNumeric (value : Json) : Prop := value.IsNumber ∧ value.IsFinite

/-- The member of an object, or `default`. -/
def memberOr (value : Json) (name : String) (default : Json) : Json := (value.member? name).getD default

/-- The member of an object, an empty object if it stands for nothing. -/
def objectIn (value : Json) (name : String) : Json := (value.memberOr name .null).orElse (.obj [])

/-- The member of an object, an empty list if it stands for nothing. -/
def listIn (value : Json) (name : String) : Json := (value.memberOr name .null).orElse (.arr [])

/-- The member of an object, zero if it stands for nothing. -/
def countIn (value : Json) (name : String) : Json := (value.memberOr name .null).orElse (.int 0)

/-- The member of an object stands for nothing or for a whole number. -/
def NumberIn (value : Json) (name : String) : Prop := (value.countIn name).IsNumeric

/-! ## What looking into a value gives -/

variable {name : String} {default value found : Json}

theorem get_eq_ok :
    value.get name default = .ok found ↔ value.isObject = true ∧ found = value.memberOr name default := by
  cases value <;> simp [get, isObject, memberOr, member?, eq_comm]

theorem ends_get : Ends (value.get name default) ↔ value.isObject = true := by
  simp [Ends, get_eq_ok]

theorem escapes_get : Escapes (value.get name default) := by
  cases value <;> simp [get, failsOnlyWith_ok, failsOnlyWith_error, Fault.IsReported]

theorem getField_eq_ok :
    value.getField name = .ok found ↔ value.isObject = true ∧ found = value.memberOr name (.str "") :=
  get_eq_ok

theorem escapes_getField : Escapes (value.getField name) := escapes_get

theorem getObject_eq_ok :
    value.getObject name = .ok found ↔ value.isObject = true ∧ found = value.objectIn name := by
  simp only [getObject, bind_eq_ok, get_eq_ok, pure_eq_ok, objectIn, Except.ok.injEq, eq_comm (b := found)]
  simp

theorem escapes_getObject : Escapes (value.getObject name) :=
  escapes_get.bind fun _ => failsOnlyWith_ok _

theorem elements_eq_ok {found : List Json} :
    value.elements = .ok found ↔ value.isListed = true ∧ found = value.items := by
  cases value <;> simp [elements, isListed, items, eq_comm]

theorem escapes_elements : Escapes value.elements := by
  cases value <;> simp [elements, failsOnlyWith_ok, failsOnlyWith_error, Fault.IsReported]

theorem getElements_eq_ok {found : List Json} :
    value.getElements name = .ok found ↔
      value.isObject = true ∧ (value.listIn name).isListed = true ∧ found = (value.listIn name).items := by
  simp [getElements, bind_eq_ok, get_eq_ok, elements_eq_ok, listIn]

theorem escapes_getElements : Escapes (value.getElements name) :=
  escapes_get.bind fun _ => escapes_elements

theorem isNumeric_str {s : String} : (str s).IsNumeric ↔ Ends (Number.readInteger s.toList) :=
  and_iff_left trivial

theorem ends_wholeNumber : Ends value.wholeNumber ↔ value.IsNumeric := by
  cases value with
  | null | arr | obj => simp [wholeNumber, IsNumeric, IsNumber, not_ends_error]
  | bool | int => simp [wholeNumber, IsNumeric, IsNumber, IsFinite, ends_ok]
  | float x =>
    cases x <;>
      simp [wholeNumber, IsNumeric, IsNumber, IsFinite, Number.Binary64.truncate?, ends_ok, not_ends_error]
  | str s =>
    rw [wholeNumber, isNumeric_str]
    cases Number.readInteger s.toList with
    | ok n => simp [ends_ok]
    | error flaw => cases flaw <;> simp [not_ends_error]

theorem escapes_wholeNumber : Escapes value.wholeNumber := by
  rw [wholeNumber.eq_def]
  repeat' split
  all_goals simp [failsOnlyWith_ok, failsOnlyWith_error, Fault.IsReported]

theorem ends_getNumber :
    Ends (value.getNumber name) ↔ value.isObject = true ∧ value.NumberIn name := by
  simp [getNumber, ends_bind, get_eq_ok, ends_wholeNumber, NumberIn, countIn]

theorem escapes_getNumber : Escapes (value.getNumber name) :=
  escapes_get.bind fun _ => escapes_wholeNumber

end Json

end Lintel
