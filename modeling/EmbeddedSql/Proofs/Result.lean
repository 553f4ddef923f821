import Mathlib.Data.List.Forall2

/-!
# Results with errors

When a computation that may fail has a result: every step of it has one. The
lemmas take apart a sequence of two steps, a change of the error, and a check or
a function applied to every entry of a list.
-/

namespace EmbeddedSql.Result

variable {ε δ α β : Type}

/-- A sequence has a result if its first step has one and the second step has
one for it. -/
theorem bind_eq_ok_iff {x : Except ε α} {f : α → Except ε β} {b : β} :
    (x >>= f) = .ok b ↔ ∃ a, x = .ok a ∧ f a = .ok b := by
  cases x with
  | error e => simp [bind, Except.bind]
  | ok a => simp [bind, Except.bind]

/-- A sequence fails if its first step does, or the second step does after it. -/
theorem bind_eq_error_iff {x : Except ε α} {f : α → Except ε β} {e : ε} :
    (x >>= f) = .error e ↔ x = .error e ∨ ∃ a, x = .ok a ∧ f a = .error e := by
  cases x with
  | error d => simp [bind, Except.bind]
  | ok a => simp [bind, Except.bind]

/-- A step with a result hands it to the next one. -/
theorem ok_bind (a : α) (f : α → Except ε β) : (Except.ok a >>= f) = f a := rfl

/-- Another error changes nothing about results. -/
theorem mapError_eq_ok_iff {x : Except ε α} {f : ε → δ} {a : α} :
    x.mapError f = .ok a ↔ x = .ok a := by
  cases x with
  | error e => simp [Except.mapError]
  | ok b => simp [Except.mapError]

/-- A function of a result has a result if there is one to apply it to. -/
theorem map_eq_ok_iff {x : Except ε α} {f : α → β} {b : β} :
    x.map f = .ok b ↔ ∃ a, x = .ok a ∧ f a = b := by
  cases x with
  | error e => simp [Except.map]
  | ok a => simp [Except.map]

/-- A function of a result fails only with what there is no result of. -/
theorem map_eq_error_iff {x : Except ε α} {f : α → β} {e : ε} :
    x.map f = .error e ↔ x = .error e := by
  cases x with
  | error d => simp [Except.map]
  | ok a => simp [Except.map]

/-- Entries that correspond to the same ones in between correspond to each other. -/
theorem forall₂_comp {γ : Type} {R : α → β → Prop} {S : β → γ → Prop} {as : List α} {bs : List β}
    {cs : List γ} (h : List.Forall₂ R as bs) (k : List.Forall₂ S bs cs) :
    List.Forall₂ (fun a c => ∃ b, R a b ∧ S b c) as cs := by
  induction h generalizing cs with
  | nil =>
    cases k
    exact .nil
  | @cons a b as bs hab _ ih =>
    obtain ⟨c, cs, hbc, hrest, rfl⟩ := List.forall₂_cons_left_iff.mp k
    exact .cons ⟨b, hab, hbc⟩ (ih hrest)

/-- An entry of the second of two corresponding lists has one of the first. -/
theorem exists_of_mem_forall₂ {R : α → β → Prop} {as : List α} {bs : List β}
    (h : List.Forall₂ R as bs) {b : β} (hb : b ∈ bs) : ∃ a ∈ as, R a b := by
  induction h with
  | nil => cases hb
  | @cons a c as bs hac _ ih =>
    rcases List.mem_cons.mp hb with rfl | hb
    · exact ⟨a, List.mem_cons_self, hac⟩
    · obtain ⟨x, hx, hxb⟩ := ih hb
      exact ⟨x, List.mem_cons_of_mem a hx, hxb⟩

/-- A check of a list succeeds if it does so for every entry. -/
theorem forM_eq_ok_iff {list : List α} {f : α → Except ε PUnit} :
    list.forM f = .ok () ↔ ∀ a ∈ list, f a = .ok () := by
  induction list with
  | nil => simp [pure, Except.pure]
  | cons first rest ih =>
    change (f first >>= fun _ => rest.forM f) = .ok () ↔ _
    rw [bind_eq_ok_iff, List.forall_mem_cons, ← ih]
    exact ⟨fun ⟨_, hf, hr⟩ => ⟨hf, hr⟩, fun ⟨hf, hr⟩ => ⟨⟨⟩, hf, hr⟩⟩

/-- A check of a list fails at one of its entries. -/
theorem exists_of_forM_eq_error {list : List α} {f : α → Except ε Unit} {e : ε}
    (h : list.forM f = .error e) : ∃ a ∈ list, f a = .error e := by
  induction list with
  | nil => cases h
  | cons first rest ih =>
    change (f first >>= fun _ => rest.forM f) = .error e at h
    rcases bind_eq_error_iff.mp h with hf | ⟨_, -, hrest⟩
    · exact ⟨first, List.mem_cons_self, hf⟩
    · obtain ⟨a, ha, hfa⟩ := ih hrest
      exact ⟨a, List.mem_cons_of_mem first ha, hfa⟩

/-- A function that may fail has results for a list if it has one for every
entry. -/
theorem mapM_eq_ok_iff {list : List α} {f : α → Except ε β} {results : List β} :
    list.mapM f = .ok results ↔ List.Forall₂ (fun a b => f a = .ok b) list results := by
  induction list generalizing results with
  | nil => simp [pure, Except.pure, eq_comm]
  | cons first rest ih =>
    rw [List.mapM_cons, bind_eq_ok_iff, List.forall₂_cons_left_iff]
    constructor
    · rintro ⟨b, hb, h⟩
      obtain ⟨bs, hbs, h⟩ := bind_eq_ok_iff.mp h
      cases h
      exact ⟨b, bs, hb, ih.mp hbs, rfl⟩
    · rintro ⟨b, bs, hb, hbs, rfl⟩
      refine ⟨b, hb, ?_⟩
      rw [ih.mpr hbs]
      rfl

/-- It fails for a list at one of its entries. -/
theorem exists_of_mapM_eq_error {list : List α} {f : α → Except ε β} {e : ε}
    (h : list.mapM f = .error e) : ∃ a ∈ list, f a = .error e := by
  induction list with
  | nil => cases h
  | cons first rest ih =>
    rw [List.mapM_cons] at h
    rcases bind_eq_error_iff.mp h with hf | ⟨b, -, hrest⟩
    · exact ⟨first, List.mem_cons_self, hf⟩
    · rcases bind_eq_error_iff.mp hrest with hrest | ⟨bs, -, hpure⟩
      · obtain ⟨a, ha, hfa⟩ := ih hrest
        exact ⟨a, List.mem_cons_of_mem first ha, hfa⟩
      · cases hpure

/-- A function that gives something for every entry of a list gives all of it. -/
theorem exists_mapM_map {γ : Type} {f : γ → Option β} {g : α → γ} {R : α → β → Prop}
    {list : List α} (h : ∀ a ∈ list, ∃ b, f (g a) = some b ∧ R a b) :
    ∃ results, (list.map g).mapM f = some results ∧ List.Forall₂ R list results := by
  induction list with
  | nil => exact ⟨[], rfl, .nil⟩
  | cons first rest ih =>
    obtain ⟨⟨b, hb, hr⟩, hrest⟩ := List.forall_mem_cons.mp h
    obtain ⟨results, hm, hresults⟩ := ih hrest
    refine ⟨b :: results, ?_, .cons hr hresults⟩
    rw [List.map_cons, List.mapM_cons, hb, hm]
    rfl

/-- What it gives for a list, it gives for the entries. -/
theorem exists_of_mem_mapM {f : α → Option β} {list : List α} {results : List β}
    (h : list.mapM f = some results) {b : β} (hb : b ∈ results) : ∃ a ∈ list, f a = some b := by
  induction list generalizing results with
  | nil =>
    obtain rfl : [] = results := Option.some.inj h
    cases hb
  | cons first rest ih =>
    rw [List.mapM_cons] at h
    obtain ⟨c, hc, h⟩ := Option.bind_eq_some_iff.mp h
    obtain ⟨cs, hcs, h⟩ := Option.bind_eq_some_iff.mp h
    obtain rfl : c :: cs = results := Option.some.inj h
    rcases List.mem_cons.mp hb with rfl | hb
    · exact ⟨first, List.mem_cons_self, hc⟩
    · obtain ⟨a, ha, hf⟩ := ih hcs hb
      exact ⟨a, List.mem_cons_of_mem first ha, hf⟩

end EmbeddedSql.Result
