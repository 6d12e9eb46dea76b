/- Unit: LoginHelper/Foundation/Records
   layer: library
   digest: Records that only grow, by entries of one kind. -/

import LoginHelper.Foundation.Loops

set_option autoImplicit false
set_option relaxedAutoImplicit false

namespace LoginHelper.Foundation.Records

open LoginHelper.Foundation.Execution LoginHelper.Foundation.Loops

variable {ε φ σ α β : Type}

/-- The newest entry comes first, and every entry since `before` is of the kind. -/
def Adds (P : β → Prop) (before after : List β) : Prop :=
  ∃ added, after = added ++ before ∧ ∀ b ∈ added, P b

variable {P : β → Prop} {before after : List β}

theorem Adds.refl (P : β → Prop) (before : List β) : Adds P before before :=
  ⟨[], rfl, List.forall_mem_nil _⟩

theorem Adds.cons {b : β} (adds : Adds P before after) (kind : P b) :
    Adds P before (b :: after) := by
  obtain ⟨added, rfl, all⟩ := adds
  exact ⟨b :: added, rfl, List.forall_mem_cons.mpr ⟨kind, all⟩⟩

theorem Adds.trans {last : List β} (adds : Adds P before after) (next : Adds P after last) :
    Adds P before last := by
  obtain ⟨added, rfl, all⟩ := adds
  obtain ⟨added', rfl, all'⟩ := next
  refine ⟨added' ++ added, (List.append_assoc ..).symm, ?_⟩
  intro b member
  exact (List.mem_append.mp member).elim (all' b) (all b)

theorem Adds.kept (adds : Adds P before after) {b : β} (member : b ∈ before) : b ∈ after := by
  obtain ⟨added, rfl, -⟩ := adds
  exact List.mem_append_right added member

theorem Adds.old_or_new (adds : Adds P before after) {b : β} (member : b ∈ after) :
    b ∈ before ∨ P b := by
  obtain ⟨added, rfl, all⟩ := adds
  exact (List.mem_append.mp member).symm.imp_right (all b)

theorem adds_isFrame (P : β → Prop) : IsFrame (Adds P) where
  refl := Adds.refl P
  trans _ _ _ := Adds.trans

theorem returns_keeps {x : Exec ε φ σ α} {s : σ} {post : α → σ → Prop} {R : σ → σ → Prop}
    (returns : Returns x s post) (keeps : x.Keeps R) :
    Returns x s fun a t => post a t ∧ R s t := by
  obtain ⟨a, t, run, holds⟩ := returns
  have related := keeps s
  rw [run] at related
  exact ⟨a, t, run, holds, related⟩

end LoginHelper.Foundation.Records
