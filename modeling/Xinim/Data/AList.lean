import Mathlib.Data.List.AList
import Mathlib.Data.Set.Card

/-! Rewriting every value of an association list in place, keys and their
order untouched; the loop `for (auto &[k, v] : map) f(k, v)` over a hash map.
For a map whose values are lists, the values flattened: what they hold and how
many there are when the lists are duplicate-free and pairwise disjoint. -/

namespace AList

variable {α : Type*} {β γ : α → Type*}

def mapValues (f : ∀ a, β a → γ a) (s : AList β) : AList γ :=
  ⟨s.entries.map (Sigma.map id f), List.NodupKeys.map₂ f _ s.nodupKeys⟩

@[simp] theorem keys_mapValues (f : ∀ a, β a → γ a) (s : AList β) :
    (s.mapValues f).keys = s.keys :=
  List.map₂_keys f s.entries

@[simp] theorem lookup_mapValues [DecidableEq α] (f : ∀ a, β a → γ a) (s : AList β) (a : α) :
    (s.mapValues f).lookup a = (s.lookup a).map (f a) :=
  List.dlookup_map₂ a

theorem foldl_length_entries {ι : Type*} (n : ℕ) (l : List (Σ _ : α, List ι)) :
    l.foldl (fun total entry => total + entry.2.length) n = n + (l.flatMap Sigma.snd).length := by
  induction l generalizing n with
  | nil => rfl
  | cons e rest ih =>
    rw [List.foldl_cons, ih, List.flatMap_cons, List.length_append]
    omega

section Lookup

variable [DecidableEq α] {δ : Type*} {s : AList (fun _ : α => δ)}

theorem lookup_insert_eq_ite (a a' : α) (b : δ) :
    (s.insert a b).lookup a' = if a' = a then some b else s.lookup a' := by
  by_cases h : a' = a
  · subst h
    simp [lookup_insert]
  · simp [lookup_insert_ne h, h]

theorem lookup_erase_eq_ite (a a' : α) : (s.erase a).lookup a' = if a' = a then none else s.lookup a' := by
  by_cases h : a' = a
  · subst h
    simp [lookup_erase]
  · simp [lookup_erase_ne h, h]

theorem lookup_replace_eq_ite (a a' : α) (b : δ) :
    (s.replace a b).lookup a' = if a' = a ∧ a ∈ s then some b else s.lookup a' := by
  obtain ⟨l, nodup⟩ := s
  simp only [replace, lookup, mem_keys, keys]
  clear nodup
  induction l with
  | nil => simp [List.kreplace]
  | cons e rest ih =>
    obtain ⟨k, v⟩ := e
    by_cases same : a = k
    · subst same
      have head : List.kreplace a b (⟨a, v⟩ :: rest) = ⟨a, b⟩ :: rest := by
        unfold List.kreplace
        exact List.lookmap_cons_some _ _ (by simp)
      rw [head]
      by_cases found : a' = a
      · subst found
        simp
      · simp [found, List.dlookup_cons_ne]
    · have head : List.kreplace a b (⟨k, v⟩ :: rest) = ⟨k, v⟩ :: List.kreplace a b rest := by
        unfold List.kreplace
        exact List.lookmap_cons_none _ _ (by simp [same])
      rw [head]
      by_cases found : a' = k
      · subst found
        have other : a' ≠ a := Ne.symm same
        simp [other]
      · simp [found, same, List.dlookup_cons_ne, ih]

end Lookup

section Flatten

variable {ι : Type*} [DecidableEq α] {s : AList (fun _ : α => List ι)}

theorem mem_flatMap_entries {x : ι} :
    x ∈ s.entries.flatMap Sigma.snd ↔ ∃ a, x ∈ (s.lookup a).getD [] := by
  simp only [List.mem_flatMap]
  constructor
  · rintro ⟨⟨a, l⟩, entry, mem⟩
    refine ⟨a, ?_⟩
    rw [mem_lookup_iff.mpr entry]
    exact mem
  · rintro ⟨a, mem⟩
    cases found : s.lookup a with
    | none => simp [found] at mem
    | some l =>
      rw [found] at mem
      exact ⟨⟨a, l⟩, mem_lookup_iff.mp found, mem⟩

theorem nodup_flatMap_entries (nodup : ∀ a, ((s.lookup a).getD []).Nodup)
    (disjoint : ∀ a b, a ≠ b → ∀ x ∈ (s.lookup a).getD [], x ∉ (s.lookup b).getD []) :
    (s.entries.flatMap Sigma.snd).Nodup := by
  have value : ∀ e ∈ s.entries, (s.lookup e.1).getD [] = e.2 := by
    intro e entry
    rw [mem_lookup_iff.mpr entry]
    rfl
  rw [List.nodup_flatMap]
  refine ⟨fun e entry => value e entry ▸ nodup e.1, ?_⟩
  apply (List.nodupKeys_iff_pairwise.mp s.nodupKeys).imp_of_mem
  intro e e' entry entry' keys x mem mem'
  exact disjoint e.1 e'.1 keys x (by rwa [value e entry]) (by rwa [value e' entry'])

end Flatten

end AList

theorem List.ncard_setOf_mem {ι : Type*} {l : List ι} (nodup : l.Nodup) : {x | x ∈ l}.ncard = l.length := by
  classical
  have finite : {x | x ∈ l} = (l.toFinset : Set ι) := by
    ext x
    simp
  rw [finite, Set.ncard_coe_finset, List.toFinset_card_of_nodup nodup]
