import Descent.Text.Position
import Descent.Proofs.Numeral.Written
import Mathlib.Data.List.DropRight

/-!
# Positions and lines

A position cuts a text in two.  The last line of the first part and the first line of the second
part make up one line of the text, and the other lines of the parts are the other lines of the text.
So the lines in front are counted by their breaks, the position is the length of these lines with
their breaks and of the part of its own line that is before it, and the caret of a description is
between the two parts of the line.
-/

namespace Descent

namespace Text

variable {x : CodePoint} {s t line : Text}

/-! ### Lines of a text -/

theorem length_splitOn (x : CodePoint) (t : Text) : (t.splitOn x).length = t.count x + 1 := by
  induction t with
  | nil => simp
  | cons c t ih =>
      rw [List.splitOn_cons_eq_if_modifyHead, List.count_cons]
      split_ifs <;> simp [ih]

theorem sum_length_splitOn (x : CodePoint) (t : Text) :
    ((t.splitOn x).map fun line => line.length + 1).sum = t.length + 1 := by
  induction t with
  | nil => simp
  | cons c t ih =>
      rw [List.splitOn_cons_eq_if_modifyHead]
      obtain ⟨first, others, hsplit⟩ := List.exists_cons_of_ne_nil (List.splitOn_ne_nil x t)
      simp only [hsplit, List.map_cons, List.sum_cons] at ih
      split_ifs
      · simp only [hsplit, List.map_cons, List.sum_cons, List.length_nil, List.length_cons]
        omega
      · simp only [hsplit, List.modifyHead_cons, List.map_cons, List.sum_cons, List.length_cons]
        omega

theorem notMem_of_mem_splitOn (h : line ∈ t.splitOn x) : x ∉ line := by
  induction t generalizing line with
  | nil =>
      obtain rfl : line = [] := by simpa using h
      simp
  | cons c t ih =>
      rw [List.splitOn_cons_eq_if_modifyHead] at h
      obtain ⟨first, others, hsplit⟩ := List.exists_cons_of_ne_nil (List.splitOn_ne_nil x t)
      rw [hsplit] at h ih
      split_ifs at h with hc
      · rcases List.mem_cons.mp h with rfl | h
        · simp
        · exact ih h
      · rcases List.mem_cons.mp h with rfl | h
        · have hfirst : x ∉ first := ih (by simp)
          have hne : x ≠ c := by
            rintro rfl
            simp at hc
          simp [hfirst, hne]
        · exact ih (List.mem_cons_of_mem first h)

/-- Where two texts meet, the last line of the one and the first line of the other are joined. -/
theorem splitOn_append {earlier later : List Text} {front back : Text}
    (hs : s.splitOn x = earlier ++ [front]) (ht : t.splitOn x = back :: later) :
    (s ++ t).splitOn x = earlier ++ (front ++ back) :: later := by
  induction s generalizing earlier front with
  | nil =>
      obtain ⟨rfl, rfl⟩ : earlier = [] ∧ front = [] := by
        cases earlier <;> simp_all
      simpa using ht
  | cons c s ih =>
      obtain ⟨first, others, hsplit⟩ := List.exists_cons_of_ne_nil (List.splitOn_ne_nil x s)
      rw [List.cons_append, List.splitOn_cons_eq_if_modifyHead]
      rw [List.splitOn_cons_eq_if_modifyHead] at hs
      split_ifs at hs ⊢
      · cases earlier with
        | nil => simp [hsplit] at hs
        | cons e earlier =>
            obtain ⟨rfl, hrest⟩ : [] = e ∧ s.splitOn x = earlier ++ [front] := by simpa using hs
            simp [ih hrest]
      · rw [hsplit] at hs
        -- The first line of `s` is joined with what follows if it is the last one as well.
        cases earlier with
        | nil =>
            obtain ⟨rfl, rfl⟩ : c :: first = front ∧ others = [] := by simpa using hs
            have hall : (s ++ t).splitOn x = [] ++ (first ++ back) :: later :=
              ih (by simpa using hsplit)
            simp [hall]
        | cons e earlier =>
            obtain ⟨rfl, rfl⟩ : c :: first = e ∧ others = earlier ++ [front] := by simpa using hs
            have hall : (s ++ t).splitOn x = (first :: earlier) ++ (front ++ back) :: later :=
              ih (by simpa using hsplit)
            simp [hall]

theorem head?_of_splitOn {back : Text} {later : List Text} (h : t.splitOn x = back :: later) :
    back.head? = t.head?.filter (· ≠ x) := by
  cases t with
  | nil =>
      obtain ⟨rfl, -⟩ : [] = back ∧ [] = later := by simpa using h
      rfl
  | cons c t =>
      rw [List.splitOn_cons_eq_if_modifyHead] at h
      obtain ⟨first, others, hsplit⟩ := List.exists_cons_of_ne_nil (List.splitOn_ne_nil x t)
      split_ifs at h with hc
      · obtain ⟨rfl, -⟩ := List.cons.inj h
        obtain rfl : c = x := by simpa using hc
        simp [Option.filter]
      · obtain ⟨rfl, -⟩ : c :: first = back ∧ others = later := by simpa [hsplit] using h
        have hne : c ≠ x := by simpa using hc
        simp [Option.filter, hne]

/-! ### The line that a text ends with -/

/-- What a text has behind its last line break, or all of it if there is none. -/
def EndsWithLine (t front : Text) : Prop :=
  ('\n' : CodePoint) ∉ front ∧
    (t = front ∨ ∃ before, t = before ++ ('\n' : CodePoint) :: front)

theorem endsWithLine_lastLine (t : Text) : EndsWithLine t (Location.lastLine t) := by
  change EndsWithLine t (t.rtakeWhile (· ≠ ('\n' : CodePoint)))
  induction t using List.reverseRecOn with
  | nil => simp [EndsWithLine]
  | append_singleton t c ih =>
      obtain ⟨hnotMem, hwhole⟩ := ih
      by_cases hc : c = ('\n' : CodePoint)
      · rw [List.rtakeWhile_concat_neg _ _ _ (by simpa using hc)]
        exact ⟨by simp, .inr ⟨t, by rw [hc]⟩⟩
      · rw [List.rtakeWhile_concat_pos _ _ _ (by simpa using hc)]
        refine ⟨?_, ?_⟩
        · have hne : ('\n' : CodePoint) ≠ c := Ne.symm hc
          simpa [hne] using hnotMem
        rcases hwhole with hwhole | ⟨before, hwhole⟩
        · exact .inl (by rw [← hwhole])
        · refine .inr ⟨before, ?_⟩
          conv_lhs => rw [hwhole]
          simp

theorem EndsWithLine.exists_splitOn {front : Text} (h : EndsWithLine t front) :
    ∃ earlier, t.splitOn ('\n' : CodePoint) = earlier ++ [front] := by
  obtain ⟨hnotMem, rfl | ⟨before, rfl⟩⟩ := h
  · exact ⟨[], List.splitOn_eq_singleton hnotMem⟩
  · refine ⟨before.splitOn ('\n' : CodePoint), ?_⟩
    rw [List.splitOn_append_cons_self, List.splitOn_eq_singleton hnotMem]

theorem ofInt_natCast (n : Nat) : ofInt n = ofNat n := by
  simp [ofInt]

theorem newline_notMem_ofNat (n : Nat) : ('\n' : CodePoint) ∉ ofNat n := by
  intro h
  rw [Numeral.ofNat_eq_digits] at h
  have hdigit := Numeral.digitsOf_digits (by decide) (by decide) n _ h
  exact absurd hdigit (by decide)

end Text

namespace Location

variable {source front back : Text} {earlier later : List Text} {q line column : Nat}

/-! ### The line of a position -/

/-- The lines of a text where it is cut at a position: the position is between the two parts
`front` and `back` of a line. -/
structure Cut (source : Text) (q : Nat) (earlier : List Text) (front back : Text)
    (later : List Text) : Prop where
  splitOn_take : (source.take q).splitOn ('\n' : CodePoint) = earlier ++ [front]
  splitOn_drop : (source.drop q).splitOn ('\n' : CodePoint) = back :: later

theorem exists_cut (source : Text) (q : Nat) :
    ∃ earlier front back later, Cut source q earlier front back later := by
  obtain ⟨earlier, hearlier⟩ := (Text.endsWithLine_lastLine (source.take q)).exists_splitOn
  obtain ⟨back, later, hlater⟩ :=
    List.exists_cons_of_ne_nil (List.splitOn_ne_nil ('\n' : CodePoint) (source.drop q))
  exact ⟨earlier, _, back, later, hearlier, hlater⟩

/-- The position where a line begins, by the number of lines in front of it. -/
def lineStart (source : Text) (n : Nat) : Nat :=
  (((source.splitOn ('\n' : CodePoint)).take n).map fun line => line.length + 1).sum

/-- A position of a text by the line it is on and the column there, both counted from one. -/
structure IsAt (source : Text) (q line column : Nat) : Prop where
  line_eq : line = (source.take q).count ('\n' : CodePoint) + 1
  column_eq : ∃ front, Text.EndsWithLine (source.take q) front ∧ column = front.length + 1
  position_eq : q = lineStart source (line - 1) + (column - 1)

theorem IsAt.unique {q' : Nat} (h : IsAt source q line column) (h' : IsAt source q' line column) :
    q' = q := by
  rw [h.position_eq, h'.position_eq]

/-- The piece of a line that is shown for the place behind its first `n` characters. -/
def window (text : Text) (n : Nat) : Text := (text.drop (n - 20)).take 40

/-- A piece of the line `text` and the caret, with `indent` spaces in front, that is shown below it
for a position of the text. -/
structure Shows (source : Text) (q column : Nat) (text piece : Text) (indent : Nat) : Prop where
  contiguous : ∃ left right, text = left ++ piece ++ right ∧ left.length + indent + 1 = column
  length_le : piece.length ≤ 40
  indent_le : indent ≤ 20
  indent_le_length : indent ≤ piece.length
  caret_under : ∀ c, source[q]? = some c → c ≠ ('\n' : CodePoint) → piece[indent]? = some c
  caret_behind : source[q]? = none ∨ source[q]? = some ('\n' : CodePoint) → indent = piece.length

theorem before_natCast (source : Text) (q : Nat) : before source q = source.take q := by
  simp [before]

theorem locate_min (source : Text) (pos : Nat) :
    locate source (min pos source.length : Nat) = locate source pos := by
  simp [locate]

namespace Cut

theorem splitOn_eq (h : Cut source q earlier front back later) :
    source.splitOn ('\n' : CodePoint) = earlier ++ (front ++ back) :: later := by
  rw [← List.take_append_drop q source]
  exact Text.splitOn_append h.splitOn_take h.splitOn_drop

theorem getElem?_eq (h : Cut source q earlier front back later) :
    (source.splitOn ('\n' : CodePoint))[earlier.length]? = some (front ++ back) := by
  simp [h.splitOn_eq]

theorem newline_notMem (h : Cut source q earlier front back later) :
    ('\n' : CodePoint) ∉ front ++ back :=
  Text.notMem_of_mem_splitOn (List.mem_of_getElem? h.getElem?_eq)

theorem count_eq (h : Cut source q earlier front back later) :
    (source.take q).count ('\n' : CodePoint) = earlier.length := by
  have hlength := Text.length_splitOn ('\n' : CodePoint) (source.take q)
  rw [h.splitOn_take, List.length_append, List.length_singleton] at hlength
  omega

theorem lastLine_eq (h : Cut source q earlier front back later) :
    lastLine (source.take q) = front := by
  obtain ⟨earlier', hearlier'⟩ := (Text.endsWithLine_lastLine (source.take q)).exists_splitOn
  have hlast := hearlier'.symm.trans h.splitOn_take
  exact List.singleton_inj.mp (List.append_inj_right' hlast rfl)

theorem lineStart_add (h : Cut source q earlier front back later) (hq : q ≤ source.length) :
    lineStart source earlier.length + front.length = q := by
  have hsum := Text.sum_length_splitOn ('\n' : CodePoint) (source.take q)
  rw [h.splitOn_take, List.length_take_of_le hq] at hsum
  simp only [List.map_append, List.sum_append, List.map_singleton, List.sum_singleton] at hsum
  rw [lineStart, h.splitOn_eq, List.take_left]
  omega

/-- Behind the position, the line goes on with the character there unless that ends the line. -/
theorem head?_back (h : Cut source q earlier front back later) :
    back.head? = source[q]?.filter (· ≠ ('\n' : CodePoint)) := by
  rw [Text.head?_of_splitOn h.splitOn_drop, List.head?_drop]

theorem isAt (h : Cut source q earlier front back later) (hq : q ≤ source.length) :
    IsAt source q (earlier.length + 1) (front.length + 1) where
  line_eq := by rw [h.count_eq]
  column_eq := ⟨front, h.lastLine_eq ▸ Text.endsWithLine_lastLine _, rfl⟩
  position_eq := (h.lineStart_add hq).symm

theorem locate_eq (h : Cut source q earlier front back later) (hq : q ≤ source.length) :
    locate source q = ⟨q, earlier.length + 1, (front.length + 1 : Nat)⟩ := by
  have hle : (q : Int) ≤ source.length := by exact_mod_cast hq
  simp only [locate, min_eq_left hle, before_natCast, h.count_eq, lastBreak, h.lastLine_eq,
    List.length_take_of_le hq, mk.injEq, true_and]
  omega

/-- The caret is put between the two parts of the line. -/
theorem excerpt?_eq (h : Cut source q earlier front back later) :
    excerpt? source ⟨q, earlier.length + 1, (front.length + 1 : Nat)⟩ =
      some (window (front ++ back) front.length,
        List.replicate (min 20 front.length) (' ' : CodePoint) ++ [('^' : CodePoint)]) := by
  have hstart : (((front.length + 1 : Nat) : Int) - 1 - (20 : Nat)).toNat = front.length - 20 := by
    omega
  have hindent : (((front.length + 1 : Nat) : Int) - 1 - (front.length - 20 : Nat)).toNat =
      min 20 front.length := by
    omega
  have hinside : ((front.length + 1 : Nat) : Int) - 1 ≤ (front ++ back).length := by
    rw [List.length_append]
    omega
  simp only [excerpt?, excerptStart, excerptLead, excerptWidth, Nat.add_sub_cancel, h.getElem?_eq,
    if_pos hinside, hstart, hindent, window]

theorem getElem?_window (h : Cut source q earlier front back later) :
    (window (front ++ back) front.length)[min 20 front.length]? =
      source[q]?.filter (· ≠ ('\n' : CodePoint)) := by
  have hplace : front.length - 20 + min 20 front.length = front.length := by omega
  rw [window, List.getElem?_take_of_lt (by omega), List.getElem?_drop, hplace,
    List.getElem?_append_right le_rfl, Nat.sub_self, ← List.head?_eq_getElem?, h.head?_back]

theorem shows (h : Cut source q earlier front back later) :
    Shows source q (front.length + 1) (front ++ back) (window (front ++ back) front.length)
      (min 20 front.length) := by
  have hlength : min 20 front.length ≤ (window (front ++ back) front.length).length := by
    simp only [window, List.length_take, List.length_drop, List.length_append]
    omega
  constructor
  case contiguous =>
    refine ⟨(front ++ back).take (front.length - 20),
      ((front ++ back).drop (front.length - 20)).drop 40, ?_, ?_⟩
    · rw [window, List.append_assoc, List.take_append_drop, List.take_append_drop]
    · rw [List.length_take, List.length_append]
      omega
  case length_le => exact List.length_take_le _ _
  case indent_le => exact Nat.min_le_left _ _
  case indent_le_length => exact hlength
  case caret_under =>
    intro c hc hne
    simp [h.getElem?_window, hc, Option.filter, hne]
  case caret_behind =>
    intro hend
    have hnone : (window (front ++ back) front.length)[min 20 front.length]? = none := by
      rcases hend with hend | hend <;> simp [h.getElem?_window, hend, Option.filter]
    exact le_antisymm hlength (List.getElem?_eq_none_iff.mp hnone)

end Cut

theorem exists_cut_locate (source : Text) (pos : Nat) :
    ∃ earlier front back later, Cut source (min pos source.length) earlier front back later ∧
      locate source pos =
        ⟨(min pos source.length : Nat), earlier.length + 1, (front.length + 1 : Nat)⟩ := by
  obtain ⟨earlier, front, back, later, hcut⟩ := exists_cut source (min pos source.length)
  have hlocate := hcut.locate_eq (Nat.min_le_right _ _)
  rw [locate_min] at hlocate
  exact ⟨earlier, front, back, later, hcut, hlocate⟩

/-- Positions inside the text are told apart by their lines and columns. -/
theorem min_eq_of_locate_eq {pos pos' : Nat}
    (hline : (locate source pos').line = (locate source pos).line)
    (hcolumn : (locate source pos').column = (locate source pos).column) :
    min pos' source.length = min pos source.length := by
  obtain ⟨earlier, front, back, later, hcut, hlocate⟩ := exists_cut_locate source pos
  obtain ⟨earlier', front', back', later', hcut', hlocate'⟩ := exists_cut_locate source pos'
  have hearlier : earlier'.length = earlier.length := by simpa [hlocate, hlocate'] using hline
  have hfront : front'.length = front.length := by simpa [hlocate, hlocate'] using hcolumn
  have hat' := hcut'.isAt (Nat.min_le_right _ _)
  rw [hearlier, hfront] at hat'
  exact (hcut.isAt (Nat.min_le_right _ _)).unique hat'

end Location

open Location

/-- The first line of a description. -/
def headline (q line column : Nat) : Text :=
  "At position " ++ Text.ofNat q ++ " (line " ++ Text.ofNat line ++ ", column " ++
    Text.ofNat column ++ ")"

theorem newline_notMem_headline (q line column : Nat) :
    ('\n' : CodePoint) ∉ headline q line column := by
  simp only [headline, List.mem_append, Text.newline_notMem_ofNat, or_false]
  decide

variable {source front back : Text} {earlier later : List Text} {q : Nat}

/-- No line of a description has a line break in it, so that the description can be taken apart. -/
theorem splitOn_describePosition (h : Cut source q earlier front back later)
    (hq : q ≤ source.length) :
    (describePosition source q).splitOn ('\n' : CodePoint) =
      [headline q (earlier.length + 1) (front.length + 1), window (front ++ back) front.length,
        List.replicate (min 20 front.length) (' ' : CodePoint) ++ [('^' : CodePoint)]] := by
  have hpiece : ('\n' : CodePoint) ∉ window (front ++ back) front.length := fun hmem =>
    h.newline_notMem (List.mem_of_mem_drop (List.mem_of_mem_take hmem))
  have hcaret : ('\n' : CodePoint) ∉
      List.replicate (min 20 front.length) (' ' : CodePoint) ++ [('^' : CodePoint)] := by
    simp only [List.mem_append, List.mem_replicate, List.mem_singleton, not_or, not_and]
    exact ⟨fun _ => by decide, by decide⟩
  simp only [describePosition, h.locate_eq hq, h.excerpt?_eq, Text.ofInt_natCast]
  refine List.splitOn_intercalate _ ?_ (by simp)
  simp only [List.mem_cons, List.not_mem_nil, or_false, forall_eq_or_imp, forall_eq]
  exact ⟨newline_notMem_headline _ _ _, hpiece, hcaret⟩

theorem describePosition_min (source : Text) (pos : Nat) :
    describePosition source (min pos source.length : Nat) = describePosition source pos := by
  rw [describePosition, locate_min, describePosition]

/-- A position is described by its line and its column, which no other position inside the text has,
and by exactly two further lines: a piece of the line of the position, and a caret under the
character there, or right behind the piece where the line ends. -/
theorem describePosition_locates (source : Text) (pos : Nat) :
    ∃ (line column : Nat) (text piece : Text) (indent : Nat),
      locate source pos = ⟨(min pos source.length : Nat), line, column⟩ ∧
      IsAt source (min pos source.length) line column ∧
      (source.splitOn ('\n' : CodePoint))[line - 1]? = some text ∧
      Shows source (min pos source.length) column text piece indent ∧
      (describePosition source pos).splitOn ('\n' : CodePoint) =
        [headline (min pos source.length) line column, piece,
          List.replicate indent (' ' : CodePoint) ++ [('^' : CodePoint)]] ∧
      ∀ pos' : Nat, (locate source pos').line = line → (locate source pos').column = column →
        min pos' source.length = min pos source.length := by
  have hq : min pos source.length ≤ source.length := Nat.min_le_right _ _
  obtain ⟨earlier, front, back, later, hcut, hlocate⟩ := exists_cut_locate source pos
  have hdescribe := splitOn_describePosition hcut hq
  rw [describePosition_min] at hdescribe
  refine ⟨_, _, _, _, _, hlocate, hcut.isAt hq, hcut.getElem?_eq, hcut.shows, hdescribe, ?_⟩
  intro pos' hline hcolumn
  exact min_eq_of_locate_eq (by rw [hline, hlocate]) (by rw [hcolumn, hlocate])

example : describePosition "ab\rXY\nc" 7 = "At position 7 (line 2, column 2)\nc\n ^" := by
  decide

end Descent
