import Mathlib.Data.Bool.AllAny
import Playpen.Proofs.Config.Validation
import Playpen.Proofs.Text.Lower

namespace Playpen.Docker

open Text (Recases IsPlain isBlank)

variable {s name : String}

theorem choice?_eq_some_iff {choice : Choice} : choice? name = some choice ↔ name = choice.name := by
  constructor
  · intro h
    have hname : decide (choice.name = name) = true :=
      List.find?_some (p := fun c : Choice => decide (c.name = name)) h
    exact (of_decide_eq_true hname).symm
  · rintro rfl
    cases choice <;> rfl

def Exact (s : String) : Prop := ∃ choice : Choice, s = choice.name

def Recased (s : String) : Prop := ∃ choice : Choice, List.Forall₂ Recases s.toList choice.name.toList

theorem Exact.recased (h : Exact s) : Recased s := by
  obtain ⟨choice, rfl⟩ := h
  exact ⟨choice, List.forall₂_same.mpr fun c _ => .itself c⟩

theorem isSome_choice?_iff : (choice? name).isSome = true ↔ Exact name := by
  rw [Option.isSome_iff_exists]
  exact exists_congr fun choice => choice?_eq_some_iff

theorem name_plain (choice : Choice) : ∀ d ∈ choice.name.toList, IsPlain d ∧ isBlank d = false := by
  have hall : choice.name.toList.all (fun d => IsPlain d ∧ isBlank d = false) = true := by
    cases choice <;> decide
  exact List.all_iff_forall_prop.mp hall

theorem exact_lower_iff : Exact (Text.lower s) ↔ Recased s :=
  exists_congr fun choice => Text.lower_eq_iff fun d hd => (name_plain choice d hd).1

instance : Decidable (Exact s) := decidable_of_iff _ isSome_choice?_iff

instance : Decidable (Recased s) := decidable_of_iff _ exact_lower_iff

theorem controlPlane_of_validate {c : Config} (hvalid : Config.validate c = .ok ()) :
    ∃ choice : Choice, c.sandbox.controlPlane = .text choice.name := by
  have hnamed := Config.validate_eq_ok.mp hvalid (Config.controlPlaneCheck c.sandbox.controlPlane) List.mem_cons_self
  generalize c.sandbox.controlPlane = v at hnamed
  unfold Config.controlPlaneCheck at hnamed
  dsimp only at hnamed
  split at hnamed
  · rename_i hv
    unfold Config.namesControlPlane at hv
    split at hv
    · rename_i name
      obtain ⟨choice, hchoice⟩ := Option.isSome_iff_exists.mp hv
      exact ⟨choice, congrArg Value.text (choice?_eq_some_iff.mp hchoice)⟩
    · cases hv
  · generalize unsupported v = message at hnamed
    cases message <;> cases hnamed

end Playpen.Docker
