import Descent.Pattern
import Mathlib.Data.List.TakeWhile

/-!
# Longest prefixes

A language may have several prefixes of a text, but only one of them is the longest.  If its texts
consist of given characters and can be continued by any of these, the longest prefix is the one that
none of these characters follows.
-/

namespace Descent.Text

structure IsLongestPrefix (L : Text → Prop) (t src : Text) : Prop where
  mem : L t
  isPrefix : t <+: src
  length_le : ∀ u, L u → u <+: src → u.length ≤ t.length

/-- A text of given characters only. -/
def Only (cs t : Text) : Prop := ∀ c ∈ t, c ∈ cs

instance (cs t : Text) : Decidable (Only cs t) := inferInstanceAs (Decidable (∀ c ∈ t, c ∈ cs))

variable {L : Text → Prop} {cs t u src rest : Text}

theorem IsLongestPrefix.unique
    (ht : IsLongestPrefix L t src) (hu : IsLongestPrefix L u src) : t = u := by
  have hle := hu.length_le t ht.mem ht.isPrefix
  have hprefix := List.prefix_of_prefix_length_le ht.isPrefix hu.isPrefix hle
  exact hprefix.eq_of_length_le (ht.length_le u hu.mem hu.isPrefix)

/-- A language whose texts consist of the characters and can be continued by them. -/
structure ContinuesBy (L : Text → Prop) (cs : Text) : Prop where
  only : ∀ t, L t → Only cs t
  snoc : ∀ t, L t → ∀ c ∈ cs, L (t ++ [c])

theorem continuesBy_only (cs : Text) : ContinuesBy (Only cs) cs where
  only := fun _ ht => ht
  snoc := by
    intro t ht c hc d hd
    rcases List.mem_append.mp hd with hd | hd
    · exact ht d hd
    · obtain rfl : d = c := by simpa using hd
      exact hc

theorem ContinuesBy.isLongestPrefix_iff (hL : ContinuesBy L cs) (hsrc : src = t ++ rest) :
    IsLongestPrefix L t src ↔ L t ∧ ∀ c ∈ rest.head?, c ∉ cs := by
  subst hsrc
  constructor
  · intro h
    refine ⟨h.mem, ?_⟩
    intro c hc hmem
    obtain ⟨others, rfl⟩ := List.head?_eq_some_iff.mp hc
    have hlonger : t ++ [c] <+: t ++ c :: others := by simp
    have hle := h.length_le _ (hL.snoc t h.mem c hmem) hlonger
    simp only [List.length_append, List.length_singleton] at hle
    omega
  · rintro ⟨ht, hnext⟩
    refine ⟨ht, List.prefix_append t rest, ?_⟩
    intro u hu hprefix
    by_contra hlonger
    obtain ⟨more, rfl⟩ : t <+: u :=
      List.prefix_of_prefix_length_le (List.prefix_append t rest) hprefix (by omega)
    obtain ⟨c, more, rfl⟩ : ∃ c others, more = c :: others := by
      apply List.exists_cons_of_ne_nil
      rintro rfl
      simp at hlonger
    obtain ⟨last, hrest⟩ := (List.prefix_append_right_inj t).mp hprefix
    have hc : c ∈ cs := hL.only _ hu c (by simp)
    exact hnext c (by simp [← hrest]) hc

theorem only_takeWhile (cs t : Text) : Only cs (t.takeWhile (CharSet.ofText cs)) := by
  intro c hc
  simpa [CharSet.ofText] using List.mem_takeWhile_imp hc

theorem notMem_of_head?_dropWhile (cs src : Text) :
    ∀ c ∈ (src.dropWhile (CharSet.ofText cs)).head?, c ∉ cs := by
  intro c hc hmem
  have hstop := List.head?_dropWhile_not (CharSet.ofText cs) src
  rw [Option.mem_def.mp hc] at hstop
  simp [CharSet.ofText, hmem] at hstop

theorem isLongestPrefix_takeWhile (cs src : Text) :
    IsLongestPrefix (Only cs) (src.takeWhile (CharSet.ofText cs)) src := by
  have hsplit : src = src.takeWhile (CharSet.ofText cs) ++ src.dropWhile (CharSet.ofText cs) :=
    List.takeWhile_append_dropWhile.symm
  exact ((continuesBy_only cs).isLongestPrefix_iff hsplit).mpr
    ⟨only_takeWhile cs src, notMem_of_head?_dropWhile cs src⟩

end Descent.Text
