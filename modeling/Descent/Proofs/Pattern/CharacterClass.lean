import Descent.Pattern.Reader
import Descent.Proofs.Numeral.Written

/-!
# Reading an escaped character class

An escaped text that is put between brackets is read as the set of its code points.  Whatever has a
meaning of its own in a written pattern is escaped, so among the marks of the text no plain one
closes the class, makes a range or turns the set into its complement, and each mark is a member that
stands for its code point.  What is written behind the brackets is then read as a repetition of the
set.
-/

namespace Descent.Pattern

variable {c d : CodePoint} {cs t rest : Text} {ms : List Mark}

/-! ### Marks of an escaped text -/

def escapedMark (c : CodePoint) : Mark := if special.contains c then .escaped c else .plain c

theorem escapedMark_ne_plain (hd : d ∈ special) : escapedMark c ≠ .plain d := by
  unfold escapedMark
  split_ifs with hc
  · simp
  · rintro heq
    obtain rfl : c = d := by simpa using heq
    exact hc (by simpa using hd)

theorem marks?_cons_of_ne (hc : c ≠ '\\') (t : Text) :
    marks? (c :: t) = (marks? t).map (.plain c :: ·) := by
  cases t with
  | nil => simp [marks?, hc]
  | cons d t => simp [marks?, hc]

theorem marks?_backslash (c : CodePoint) (t : Text) :
    marks? ('\\' :: c :: t) = (marks? t).map (.escaped c :: ·) := by
  simp [marks?]

theorem marks?_escape_append (cs rest : Text) :
    marks? (escape cs ++ rest) = (marks? rest).map (cs.map escapedMark ++ ·) := by
  induction cs with
  | nil => simp [escape]
  | cons c cs ih =>
      by_cases hc : c ∈ special
      · have hcons : escape (c :: cs) = ('\\' : CodePoint) :: c :: escape cs := by
          simp [escape, hc]
        have hmark : escapedMark c = .escaped c := by simp [escapedMark, hc]
        rw [hcons, List.cons_append, List.cons_append, marks?_backslash, ih, List.map_cons, hmark,
          Option.map_map]
        rfl
      · have hcons : escape (c :: cs) = c :: escape cs := by simp [escape, hc]
        have hmark : escapedMark c = .plain c := by simp [escapedMark, hc]
        have hbackslash : c ≠ '\\' := by
          rintro rfl
          exact hc (by decide)
        rw [hcons, List.cons_append, marks?_cons_of_ne hbackslash, ih, List.map_cons, hmark,
          Option.map_map]
        rfl

/-- Without a backslash all marks are plain. -/
theorem marks?_of_notMem (h : CodePoint.ofChar '\\' ∉ t) : marks? t = some (t.map .plain) := by
  induction t with
  | nil => rfl
  | cons c t ih =>
      have hc : c ≠ '\\' := by
        rintro rfl
        simp at h
      have ht : CodePoint.ofChar '\\' ∉ t := fun hmem => h (List.mem_cons_of_mem c hmem)
      rw [marks?_cons_of_ne hc, ih ht]
      rfl

/-! ### The class -/

theorem member?_escaped (hc : c ∈ special) : member? (.escaped c) = some (.one c) := by
  have hmeaning : ∀ d ∈ special, (classEscape? d).isNone ∧ (controlEscape? d).isNone ∧
      d ≠ CodePoint.ofChar 'b' ∧ needsMeaning d = false := by
    decide
  obtain ⟨hclass, hcontrol, hb, hneeds⟩ := hmeaning c hc
  simp only [Option.isNone_iff_eq_none] at hclass hcontrol
  simp [member?, hclass, hcontrol, hb, hneeds]

theorem member?_escapedMark (c : CodePoint) : member? (escapedMark c) = some (.one c) := by
  unfold escapedMark
  split_ifs with hc
  · exact member?_escaped (by simpa using hc)
  · rfl

theorem members?_closing (s : CharSet) (ms : List Mark) :
    members? false s (.plain ']' :: ms) = some (s, ms) := by
  cases ms <;> simp [members?]

theorem members?_escapedMark
    {first : Bool} {s : CharSet} {n : Mark} (hn : n ≠ .plain '-') (c : CodePoint) (ms : List Mark) :
    members? first s (escapedMark c :: n :: ms) =
      members? false (s.union (CharSet.one c)) (n :: ms) := by
  have hclosing : escapedMark c ≠ .plain ']' := escapedMark_ne_plain (by decide)
  simp [members?, hclosing, hn, member?_escapedMark, Member.toCharSet]

theorem union_one_ofText (s : CharSet) (c : CodePoint) (cs : Text) :
    (s.union (CharSet.one c)).union (CharSet.ofText cs) = s.union (CharSet.ofText (c :: cs)) := by
  funext d
  simp [CharSet.union, CharSet.one, CharSet.ofText, Bool.or_assoc, Bool.beq_eq_decide_eq]

theorem members?_escaped
    (first : Bool) (s : CharSet) (hfirst : cs = [] → first = false) (ms : List Mark) :
    members? first s (cs.map escapedMark ++ .plain ']' :: ms) =
      some (s.union (CharSet.ofText cs), ms) := by
  induction cs generalizing first s with
  | nil =>
      obtain rfl : first = false := hfirst rfl
      have hnone : s.union (CharSet.ofText []) = s := by
        funext d
        simp [CharSet.union, CharSet.ofText]
      rw [List.map_nil, List.nil_append, members?_closing, hnone]
  | cons c cs ih =>
      -- A mark is a member of its own because no hyphen follows it.
      obtain ⟨n, ns, hnext, hn⟩ : ∃ n ns,
          cs.map escapedMark ++ .plain ']' :: ms = n :: ns ∧ n ≠ .plain '-' := by
        cases cs with
        | nil => exact ⟨_, _, rfl, by decide⟩
        | cons d cs => exact ⟨_, _, rfl, escapedMark_ne_plain (by decide)⟩
      have hrest := ih false (s.union (CharSet.one c)) (fun _ => rfl)
      rw [hnext] at hrest
      rw [List.map_cons, List.cons_append, hnext, members?_escapedMark hn, hrest,
        union_one_ofText]

theorem class?_escaped (hcs : cs ≠ []) (ms : List Mark) :
    class? {} (cs.map escapedMark ++ .plain ']' :: ms) = some (CharSet.ofText cs, ms) := by
  obtain ⟨c, cs, rfl⟩ := List.exists_cons_of_ne_nil hcs
  have hmembers := members?_escaped true (fun _ => false) (fun h => absurd h hcs) ms
  have hcomplement : escapedMark c ≠ .plain '^' := escapedMark_ne_plain (by decide)
  rw [List.map_cons, List.cons_append] at hmembers ⊢
  have hset : CharSet.union (fun _ => false) (CharSet.ofText (c :: cs)) =
      CharSet.ofText (c :: cs) := rfl
  simp [class?, hcomplement, hmembers, hset, respectingCase]

/-! ### The whole pattern -/

variable {bounds : Bounds}

theorem marks?_class (cs t : Text) :
    marks? ("[" ++ escape cs ++ "]" ++ t) =
      (marks? t).map fun ms => .plain '[' :: (cs.map escapedMark ++ .plain ']' :: ms) := by
  have hopening : ("[" : Text) ++ escape cs ++ "]" ++ t =
      ('[' : CodePoint) :: (escape cs ++ ((']' : CodePoint) :: t)) := by
    simp [Text.ofString]
  rw [hopening, marks?_cons_of_ne (by decide), marks?_escape_append,
    marks?_cons_of_ne (by decide), Option.map_map, Option.map_map]
  rfl

theorem symbol?_class (hcs : cs ≠ []) (ms : List Mark) :
    symbol? {} (.plain '[' :: (cs.map escapedMark ++ .plain ']' :: ms)) =
      some (.set (CharSet.ofText cs), ms) := by
  have hrepetition : ∀ ms, repetition? (.plain '[' :: ms) = none := fun _ => rfl
  simp [symbol?, hrepetition, class?_escaped hcs]

theorem symbols?_class (hcs : cs ≠ []) (ms : List Mark) :
    symbols? {} (.plain '[' :: (cs.map escapedMark ++ .plain ']' :: ms)) =
      (symbolsWithin? {} (cs.length + 1 + ms.length) ms).map (.set (CharSet.ofText cs) :: ·) := by
  have hlength : (Mark.plain '[' :: (cs.map escapedMark ++ .plain ']' :: ms)).length =
      cs.length + 1 + ms.length + 1 := by
    simp
    omega
  rw [symbols?, hlength, symbolsWithin?, symbol?_class hcs]
  exact List.cons_ne_nil _ _

theorem read_of_assemble {symbols : List Symbol} {p : Pattern} (hmarks : marks? t = some ms)
    (hsymbols : symbols? {} ms = some symbols)
    (hassemble : assemble? (.new .plain) [] symbols = some p) : read {} t = .ok p := by
  have hread : read? {} t = some p := by simp [read?, hmarks, hsymbols, hassemble]
  rw [read, hread]

theorem read_class (hcs : cs ≠ []) :
    read {} ("[" ++ escape cs ++ "]" ++ "") = .ok (.set (CharSet.ofText cs)) := by
  have hsymbols : symbols? {} (.plain '[' :: (cs.map escapedMark ++ [.plain ']'])) =
      some [.set (CharSet.ofText cs)] := by
    rw [symbols?_class hcs, symbolsWithin?]
    rfl
  exact read_of_assemble (marks?_class cs "") hsymbols rfl

theorem symbolsWithin?_repetition
    (h : repetition? ms = some (bounds, [])) (fuel : Nat) :
    symbolsWithin? {} (fuel + 1) ms = some [.repetition bounds .greedy] := by
  cases ms with
  | nil => simp [repetition?] at h
  | cons m ms =>
      cases m with
      | escaped c => simp [repetition?] at h
      | plain c => simp [symbolsWithin?, symbol?, h, greed, plain?]

theorem read_class_repetition (hcs : cs ≠ []) (ht : marks? t = some ms)
    (h : repetition? ms = some (bounds, [])) (hbounds : bounds.most.all (bounds.least ≤ ·)) :
    read {} ("[" ++ escape cs ++ "]" ++ t) =
      .ok (.iterate (.set (CharSet.ofText cs)) bounds.least bounds.most .greedy) := by
  have hmarks := marks?_class cs t
  rw [ht] at hmarks
  have hfuel : cs.length + 1 + ms.length = cs.length + ms.length + 1 := by omega
  have hsymbols : symbols? {} (.plain '[' :: (cs.map escapedMark ++ .plain ']' :: ms)) =
      some [.set (CharSet.ofText cs), .repetition bounds .greedy] := by
    rw [symbols?_class hcs, hfuel, symbolsWithin?_repetition h]
    rfl
  apply read_of_assemble hmarks hsymbols
  simp [assemble?, OpenGroup.push, OpenGroup.new, OpenGroup.content, OpenGroup.endAlternative,
    OpenGroup.repeatLast?, hbounds, seqAll, altAll]

/-! ### A number of repetitions -/

theorem digitRun_append {digits : Text} (hdigits : ∀ c ∈ digits, CharSet.digits c = true)
    (hms : ∀ c, ms.head? = some (.plain c) → CharSet.digits c = false) :
    digitRun (digits.map .plain ++ ms) = (digits, ms) := by
  induction digits with
  | nil =>
      cases ms with
      | nil => rfl
      | cons m ms =>
          cases m with
          | escaped c => rfl
          | plain c =>
              have hc := hms c rfl
              simp [digitRun, hc]
  | cons c digits ih =>
      have hc := hdigits c (by simp)
      have hrest := ih fun d hd => hdigits d (List.mem_cons_of_mem c hd)
      simp [digitRun, hc, hrest]

theorem digits_of_mem_ofNat {n : Nat} (hc : c ∈ Text.ofNat n) : CharSet.digits c = true := by
  rw [Numeral.ofNat_eq_digits] at hc
  have hdigit := Numeral.digitsOf_digits (by decide) (by decide) n c hc
  exact (Alphabet.digits_iff_mem_decimal c).mpr ((Alphabet.mem_decimal_iff c).mpr hdigit)

theorem read?_ofNat (n : Nat) : Numeral.read? 10 (Text.ofNat n) = some n := by
  have hdigits : Numeral.DigitsOf 10 (Numeral.digits 10 n) :=
    Numeral.digitsOf_digits (by decide) (by decide) n
  rw [Numeral.ofNat_eq_digits, Numeral.read?_eq_some_value (Numeral.digits_ne_nil 10 n) hdigits,
    Numeral.value_digits (by decide) (by decide)]

def timesMarks (n : Nat) : List Mark :=
  .plain '{' :: ((Text.ofNat n).map .plain ++ [.plain '}'])

theorem marks?_times (n : Nat) : marks? ("\x7b" ++ Text.ofNat n ++ "\x7d") = some (timesMarks n) := by
  have hdigits : CodePoint.ofChar '\\' ∉ Text.ofNat n := by
    intro hmem
    exact absurd (digits_of_mem_ofNat hmem) (by decide)
  have hplain : CodePoint.ofChar '\\' ∉ ("\x7b" : Text) ++ Text.ofNat n ++ "\x7d" := by
    simp [Text.ofString, hdigits]
    decide
  rw [marks?_of_notMem hplain]
  simp [timesMarks, Text.ofString]

theorem repetition?_brace (ms : List Mark) : repetition? (.plain '{' :: ms) = bounds? ms := rfl

theorem repetition?_times (n : Nat) : repetition? (timesMarks n) = some (⟨n, some n⟩, []) := by
  have hrun : digitRun ((Text.ofNat n).map .plain ++ [.plain '}']) =
      (Text.ofNat n, [.plain '}']) := by
    apply digitRun_append fun c hc => digits_of_mem_ofNat hc
    intro c hc
    obtain rfl : CodePoint.ofChar '}' = c := by simpa using hc
    decide
  have hne : Text.ofNat n ≠ [] := by
    rw [Numeral.ofNat_eq_digits]
    exact Numeral.digits_ne_nil 10 n
  have hcomma : CodePoint.ofChar '}' ≠ ',' := by decide
  have hbounds : bounds? ((Text.ofNat n).map .plain ++ [.plain '}']) =
      some (⟨n, some n⟩, []) := by
    simp [bounds?, hrun, read?_ofNat, hne, plain?, hcomma]
  rw [timesMarks, repetition?_brace, hbounds]

end Descent.Pattern
