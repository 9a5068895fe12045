import Mathlib

/-!
# Covering one list by another

A list is covered by a second one if every element of it stands below some element
of the second.  Covering is a preorder where the relation on elements is one, and
what an element of the covered list admits is admitted by an element of the
covering list.
-/

namespace TouchBar.Lib

variable {α β γ : Type*}

/-- Every element of the first list is below some element of the second. -/
def coveredBy (r : α → β → Bool) (l : List α) (m : List β) : Bool := l.all fun a => m.any (r a)

@[simp] lemma coveredBy_iff {r : α → β → Bool} {l : List α} {m : List β} :
    coveredBy r l m = true ↔ ∀ a ∈ l, ∃ b ∈ m, r a b = true := by
  simp [coveredBy]

lemma coveredBy_refl {r : α → α → Bool} {l : List α} (h : ∀ a ∈ l, r a a = true) :
    coveredBy r l l = true :=
  coveredBy_iff.mpr fun a ha => ⟨a, ha, h a ha⟩

lemma coveredBy_trans {r : α → α → Bool} {l₁ l₂ l₃ : List α}
    (h : ∀ a b c, r a b = true → r b c = true → r a c = true)
    (h₁ : coveredBy r l₁ l₂ = true) (h₂ : coveredBy r l₂ l₃ = true) :
    coveredBy r l₁ l₃ = true := by
  rw [coveredBy_iff] at h₁ h₂ ⊢
  intro a ha
  obtain ⟨b, hb, hab⟩ := h₁ a ha
  obtain ⟨c, hc, hbc⟩ := h₂ b hb
  exact ⟨c, hc, h a b c hab hbc⟩

/-- If larger elements admit more, a covering list admits what the covered one admits. -/
lemma any_of_coveredBy {r : α → α → Bool} {p : α → Bool} {l m : List α}
    (h : ∀ a b, r a b = true → p a = true → p b = true) (hcov : coveredBy r l m = true)
    (hany : l.any p = true) : m.any p = true := by
  rw [List.any_eq_true] at hany ⊢
  obtain ⟨a, ha, hp⟩ := hany
  obtain ⟨b, hb, hab⟩ := coveredBy_iff.mp hcov a ha
  exact ⟨b, hb, h a b hab hp⟩

/-- If smaller elements demand more, a list that covers the demands meets them. -/
lemma all_of_coveredBy {r : α → α → Bool} {p : α → Bool} {l m : List α}
    (h : ∀ a b, r a b = true → p b = true → p a = true) (hcov : coveredBy r l m = true)
    (hall : m.all p = true) : l.all p = true := by
  rw [List.all_eq_true] at hall ⊢
  intro a ha
  obtain ⟨b, hb, hab⟩ := coveredBy_iff.mp hcov a ha
  exact h a b hab (hall b hb)

end TouchBar.Lib
