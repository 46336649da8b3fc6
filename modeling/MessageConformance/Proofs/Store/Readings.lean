import MessageConformance.Store
import Mathlib.Data.List.Forall2

/-!
# Reading one thing after another

Computations over a store that are made for each item of a list succeed together or not at all
(`outcome_mapM_eq_ok_iff`), and then read what each of them reads, in order (`asked_mapM`).
-/

namespace MessageConformance.Loading

variable {ε α β : Type}

theorem outcome_bind_eq_ok_iff (r : Loading ε α) (next : α → Loading ε β) (b : β) :
    outcome (r >>= next) = .ok b ↔ ∃ a, r.outcome = .ok a ∧ (next a).outcome = .ok b := by
  rw [outcome_bind]
  cases r.outcome <;> simp

theorem asked_bind_of_ok {r : Loading ε α} {a : α} (made : r.outcome = .ok a)
    (next : α → Loading ε β) : asked (r >>= next) = r.asked ++ (next a).asked := by
  rw [asked_bind, made]

/-- A computation made for each item succeeds when every one of them does. -/
theorem outcome_mapM_eq_ok_iff (f : α → Loading ε β) (items : List α) (results : List β) :
    outcome (items.mapM f) = .ok results ↔
      List.Forall₂ (fun a b => (f a).outcome = .ok b) items results := by
  induction items generalizing results with
  | nil => cases results <;> simp
  | cons a items ih =>
    simp only [List.mapM_cons, outcome_bind_eq_ok_iff, ih, outcome_pure]
    constructor
    · rintro ⟨b, here, bs, later, made⟩
      obtain rfl := Except.ok.inj made
      exact .cons here later
    · intro all
      cases all with
      | cons here later => exact ⟨_, here, _, later, rfl⟩

/-- Where success gives a known result under a known condition, so does success for all items. -/
theorem outcome_mapM_eq_ok_iff_of_step {f : α → Loading ε β} {holds : α → Prop} {result : α → β}
    (step : ∀ a b, (f a).outcome = .ok b ↔ holds a ∧ b = result a) (items : List α)
    (results : List β) :
    outcome (items.mapM f) = .ok results ↔
      (∀ a ∈ items, holds a) ∧ results = items.map result := by
  have same : List.Forall₂ (fun a b => b = result a) items results ↔
      results = items.map result := by
    have turned : (fun a b => b = result a) = fun a b => result a = b := by
      funext a b; exact propext eq_comm
    rw [turned, ← List.forall₂_map_left_iff (R := (· = ·)), List.forall₂_eq_eq_eq, eq_comm]
  rw [outcome_mapM_eq_ok_iff]
  simp only [step, List.forall₂_and_left, same]

theorem asked_mapM {f : α → Loading ε β} {items : List α} {results : List β}
    (made : outcome (items.mapM f) = .ok results) :
    asked (items.mapM f) = items.flatMap fun a => (f a).asked := by
  induction items generalizing results with
  | nil => rfl
  | cons a items ih =>
    simp only [List.mapM_cons, outcome_bind_eq_ok_iff] at made
    obtain ⟨b, here, bs, later, -⟩ := made
    rw [List.mapM_cons, asked_bind_of_ok here, asked_bind_of_ok later, ih later, asked_pure,
      List.append_nil, List.flatMap_cons]

/-! ## What is read at most -/

theorem mem_asked_bind {r : Loading ε α} {next : α → Loading ε β} {l : Location}
    (asked : l ∈ (r >>= next).asked) :
    l ∈ r.asked ∨ ∃ a, r.outcome = .ok a ∧ l ∈ (next a).asked := by
  rw [asked_bind, List.mem_append] at asked
  refine asked.imp_right fun later => ?_
  cases made : r.outcome with
  | ok a => exact ⟨a, rfl, by simpa [made] using later⟩
  | error e => simp [made] at later

theorem mem_asked_mapM {f : α → Loading ε β} {items : List α} {l : Location}
    (asked : l ∈ Loading.asked (items.mapM f)) : ∃ a ∈ items, l ∈ (f a).asked := by
  induction items with
  | nil => simp at asked
  | cons a items ih =>
    rw [List.mapM_cons] at asked
    obtain here | ⟨b, -, later⟩ := mem_asked_bind asked
    · exact ⟨a, List.mem_cons_self .., here⟩
    · obtain later | ⟨bs, -, none⟩ := mem_asked_bind later
      · obtain ⟨a', member, there⟩ := ih later
        exact ⟨a', List.mem_cons_of_mem a member, there⟩
      · simp at none

theorem mem_asked_foldlM {f : β → α → Loading ε β} {items : List α} {start : β} {l : Location}
    (asked : l ∈ Loading.asked (items.foldlM f start)) :
    ∃ a ∈ items, ∃ b, l ∈ (f b a).asked := by
  induction items generalizing start with
  | nil => simp at asked
  | cons a items ih =>
    rw [List.foldlM_cons] at asked
    obtain here | ⟨b, -, later⟩ := mem_asked_bind asked
    · exact ⟨a, List.mem_cons_self .., start, here⟩
    · obtain ⟨a', member, there⟩ := ih later
      exact ⟨a', List.mem_cons_of_mem a member, there⟩

end MessageConformance.Loading
