/-
# TimeSeries.Proofs.Query.TimeLiteral — times are read exactly or refused.

The literal of a time is the first word of a text, up to the letters `and`. It is read when it
writes a whole number, with `ms` behind it or not, and neither the number nor the nanoseconds that
it stands for leave the range of counts (`readTime?_eq_some_iff`). Any other literal is refused, and
the refusal names it. A condition is refused for a literal behind one of its comparisons alone, and
the one behind `>=` comes first (`times_read_exactly`).
-/
import TimeSeries.Proofs.Query.Bounds

namespace TimeSeries.Query

open Text (isBlank IsFirstCut IsAbsent)

variable {s text w literal condition : List Char} {sign : String} {default now t : Nanos}
  {n ns : Int} {e : Error}

/-! ## First words -/

/-- The first word of a text: blanks may stand before it, and it runs up to a blank or to the end.
That of a blank text is empty. -/
inductive IsFirstWord : List Char → List Char → Prop
  | blank {s : List Char} (blank : ∀ c ∈ s, isBlank c = true) : IsFirstWord s []
  | word {gap w rest : List Char} (blank : ∀ c ∈ gap, isBlank c = true) (ne_nil : w ≠ [])
      (solid : ∀ c ∈ w, isBlank c = false) (stops : ∀ c ∈ rest.head?, isBlank c = true) :
      IsFirstWord (gap ++ (w ++ rest)) w

theorem IsFirstWord.eq (h : IsFirstWord s w) : Text.firstWord s = w := by
  cases h with
  | blank hblank =>
    rw [Text.firstWord, Text.trimStart, List.dropWhile_eq_nil_iff.mpr hblank]
    rfl
  | word hgap hne hsolid hstops => exact firstWord_append hgap hne hsolid hstops

theorem isFirstWord_firstWord (s : List Char) : IsFirstWord s (Text.firstWord s) := by
  have hs : s.takeWhile isBlank ++ Text.trimStart s = s := List.takeWhile_append_dropWhile
  have hsolid : Text.StartsSolid (Text.trimStart s) := Text.startsSolid_dropWhile s
  rw [Text.firstWord]
  cases hrest : Text.trimStart s with
  | nil => exact .blank (List.dropWhile_eq_nil_iff.mp hrest)
  | cons c rest =>
    rw [hrest] at hs hsolid
    have hc : isBlank c = false := hsolid c rfl
    rw [← List.takeWhile_append_dropWhile (p := (!isBlank ·)) (l := c :: rest)] at hs
    conv => lhs; rw [← hs]
    refine .word (fun _ hd => List.mem_takeWhile_imp hd) (by simp [hc]) (fun d hd => ?_)
      fun d hd => ?_
    · simpa using List.mem_takeWhile_imp hd
    · have hstop := List.head?_dropWhile_not (!isBlank ·) (c :: rest)
      rw [Option.mem_def.mp hd] at hstop
      simpa using hstop

/-! ## Literals -/

/-- The literal that a text starts with: its first word, up to the letters `and` if it has them. -/
inductive IsLiteral (text : List Char) : List Char → Prop
  | word {w : List Char} (first : IsFirstWord text w) (absent : IsAbsent "and".toList w) :
      IsLiteral text w
  | cut {w before after : List Char} (first : IsFirstWord text w)
      (cut : IsFirstCut "and".toList w before after) : IsLiteral text before

theorem isLiteral_iff : IsLiteral text literal ↔ literal = timeLiteral text := by
  constructor
  · rintro (⟨hfirst, habsent⟩ | ⟨hfirst, hcut⟩)
    · rw [timeLiteral, hfirst.eq, Text.cut?_eq_none_iff.mpr habsent]
    · rw [timeLiteral, hfirst.eq, Text.cut?_eq_some_iff.mpr hcut]
  · rintro rfl
    have hfirst := isFirstWord_firstWord text
    rw [timeLiteral]
    cases hcut : Text.cut? "and".toList (Text.firstWord text) with
    | none => exact .word hfirst (Text.cut?_eq_none_iff.mp hcut)
    | some parts => exact .cut hfirst (Text.cut?_eq_some_iff.mp hcut)

/-! ## What a literal stands for -/

/-- The number that a literal writes, and the nanoseconds that it counts: as many as that, or a
million times as many with `ms` behind it. -/
inductive Denotes : List Char → Int → Int → Prop
  | nanos {n : Int} {w : List Char} (written : WritesInt n w) : Denotes w n n
  | millis {n : Int} {w unit : List Char} (written : WritesInt n w)
      (keyword : IsKeyword "ms" unit) : Denotes (w ++ unit) n (n * 1000000)

/-- The number is one of 64 bits with a sign. -/
def Fits (n : Int) : Prop := -2 ^ 63 ≤ n ∧ n < 2 ^ 63

/-- The literal stands for a time: neither its number nor its nanoseconds are out of range. -/
def StandsFor (literal : List Char) (ns : Int) : Prop :=
  ∃ n, Denotes literal n ns ∧ Fits n ∧ Fits ns

theorem fits_toInt (t : Nanos) : Fits t.toInt := by
  have hlower := t.lower
  have hupper := t.upper
  constructor <;> omega

theorem Fits.exists_toInt (h : Fits n) : ∃ t : Nanos, t.toInt = n := by
  obtain ⟨hlower, hupper⟩ := h
  exact ⟨⟨n, by omega, by omega⟩, rfl⟩

theorem Denotes.writesTime (h : Denotes w n ns) (ht : t.toInt = ns) : WritesTime t w := by
  cases h with
  | nanos hint => exact .nanos (ht ▸ hint)
  | millis hint hunit => exact .millis hint hunit ht

/-- What stands before the digits is a sign that writes them together with a number. -/
theorem standsFor_of_readCount? {mark unsigned : List Char} {sign : Int}
    (hmark : ∀ ds, IsDigits ds → WritesInt (sign * Nat.ofDigitChars 10 ds 0) (mark ++ ds))
    (h : readCount? sign unsigned = some t) : StandsFor (mark ++ unsigned) t.toInt := by
  obtain ⟨m, hm, hnumber⟩ := Option.bind_eq_some_iff.mp h
  obtain ⟨count, hcount, hcounted⟩ := Option.bind_eq_some_iff.mp hnumber
  have hdigits : IsDigits (unsigned.takeWhile Char.isDigit) := by
    refine ⟨?_, fun c hc => List.mem_takeWhile_imp hc⟩
    intro hnil
    rw [hnil] at hm
    cases hm
  have hvalue : count.toInt = sign * Nat.ofDigitChars 10 (unsigned.takeWhile Char.isDigit) 0 := by
    rw [Nanos.ofInt?_eq_some_iff.mp hcount, Option.some.inj (hm.symm.trans hdigits.readNat?_eq)]
  have hwritten := hmark _ hdigits
  have hunsigned := List.takeWhile_append_dropWhile (p := Char.isDigit) (l := unsigned)
  rw [← hvalue] at hwritten
  rw [← hunsigned, ← List.append_assoc]
  refine ⟨count.toInt, ?_, fits_toInt count, fits_toInt t⟩
  split at hcounted
  · rename_i hempty
    rw [Text.lower_eq_nil_iff.mp (List.isEmpty_iff.mp hempty), List.append_nil,
      ← Option.some.inj hcounted]
    exact .nanos hwritten
  · split at hcounted
    · rename_i hunit
      rw [show t.toInt = count.toInt * 1000000 from Nanos.ofInt?_eq_some_iff.mp hcounted]
      exact .millis hwritten hunit
    · cases hcounted

/-- A literal is read as what it stands for, and only as that. -/
theorem readTime?_eq_some_iff : readTime? literal = some t ↔ StandsFor literal t.toInt := by
  constructor
  · intro h
    rw [readTime?_eq] at h
    split at h
    · rename_i unsigned hminus
      obtain rfl := afterMark?_eq_some_iff.mp hminus
      show StandsFor (['-'] ++ unsigned) t.toInt
      refine standsFor_of_readCount? (fun ds hds => ?_) h
      rw [Int.neg_one_mul]
      exact .negative hds
    · show StandsFor ([] ++ literal) t.toInt
      refine standsFor_of_readCount? (fun ds hds => ?_) h
      rw [Int.one_mul]
      exact .plain hds
  · rintro ⟨n, hdenotes, -, -⟩
    exact (hdenotes.writesTime rfl).readTime?_eq

theorem readTime?_eq_none_iff : readTime? literal = none ↔ ¬ ∃ ns, StandsFor literal ns := by
  rw [Option.eq_none_iff_forall_ne_some, not_exists]
  constructor
  · rintro h ns ⟨n, hdenotes, hnumber, hfits⟩
    obtain ⟨t, rfl⟩ := hfits.exists_toInt
    exact h t (readTime?_eq_some_iff.mpr ⟨n, hdenotes, hnumber, hfits⟩)
  · exact fun h t ht => h t.toInt (readTime?_eq_some_iff.mp ht)

/-! ## Times -/

theorem readTime_eq_ok_iff : readTime text = .ok t ↔ StandsFor (timeLiteral text) t.toInt := by
  rw [← readTime?_eq_some_iff, readTime]
  cases readTime? (timeLiteral text) with
  | none => simp
  | some t' => simp

theorem readTime_eq_error_iff : readTime text = .error e ↔
    e = .invalidTimeFormat (String.ofList (timeLiteral text)) ∧
      ¬ ∃ ns, StandsFor (timeLiteral text) ns := by
  rw [← readTime?_eq_none_iff, readTime]
  cases readTime? (timeLiteral text) with
  | none => simp [eq_comm]
  | some t' => simp

/-! ## Bounds -/

/-- The first comparison of the text has a literal behind it that stands for no time. -/
def RefusesBound (sign : String) (text literal : List Char) : Prop :=
  ∃ before after, IsFirstCut sign.toList text before after ∧ IsLiteral after literal ∧
    ¬ ∃ ns, StandsFor literal ns

theorem readBound_eq_error_iff : readBound sign default text = .error e ↔
    ∃ literal, RefusesBound sign text literal ∧ e = .invalidTimeFormat (String.ofList literal) := by
  unfold readBound
  cases hcut : Text.cut? sign.toList text with
  | none =>
    have habsent := Text.cut?_eq_none_iff.mp hcut
    refine iff_of_false (by simp) ?_
    rintro ⟨literal, ⟨before, after, hfirst, -⟩, -⟩
    obtain ⟨w, hw, htext⟩ := hfirst.cut
    exact habsent before w after hw htext
  | some parts =>
    have hfirst := Text.cut?_eq_some_iff.mp hcut
    dsimp only
    rw [readTime_eq_error_iff]
    constructor
    · rintro ⟨rfl, hnone⟩
      exact ⟨_, ⟨_, _, hfirst, isLiteral_iff.mpr rfl, hnone⟩, rfl⟩
    · rintro ⟨literal, ⟨before, after, hfirst', hliteral, hnone⟩, rfl⟩
      obtain ⟨rfl, rfl⟩ := hfirst.unique hfirst'
      obtain rfl := isLiteral_iff.mp hliteral
      exact ⟨rfl, hnone⟩

/-- A bound that is not refused is read. -/
theorem exists_readBound_iff (sign : String) (default : Nanos) (text : List Char) :
    (∃ t, readBound sign default text = .ok t) ↔ ¬ ∃ literal, RefusesBound sign text literal := by
  cases hread : readBound sign default text with
  | ok t =>
    refine iff_of_true ⟨t, rfl⟩ ?_
    rintro ⟨literal, hrefused⟩
    rw [readBound_eq_error_iff.mpr ⟨literal, hrefused, rfl⟩] at hread
    cases hread
  | error e =>
    obtain ⟨literal, hrefused, -⟩ := readBound_eq_error_iff.mp hread
    exact iff_of_false (by simp) fun h => h ⟨literal, hrefused⟩

/-- Of two bounds that are refused the lower one counts. -/
theorem readBounds_eq_error_iff : readBounds text now = .error e ↔
    ∃ literal, e = .invalidTimeFormat (String.ofList literal) ∧
      (RefusesBound ">=" text literal ∨
        (¬ ∃ l, RefusesBound ">=" text l) ∧ RefusesBound "<=" text literal) := by
  rw [readBounds, Outcome.bind_eq_error_iff, readBound_eq_error_iff]
  constructor
  · rintro (⟨literal, hrefused, rfl⟩ | ⟨start, hstart, h⟩)
    · exact ⟨literal, rfl, .inl hrefused⟩
    · rcases Outcome.bind_eq_error_iff.mp h with h | ⟨_, -, h⟩
      · obtain ⟨literal, hrefused, rfl⟩ := readBound_eq_error_iff.mp h
        exact ⟨literal, rfl, .inr ⟨(exists_readBound_iff ..).mp ⟨start, hstart⟩, hrefused⟩⟩
      · cases h
  · rintro ⟨literal, rfl, hrefused | ⟨hstart, hrefused⟩⟩
    · exact .inl ⟨literal, hrefused, rfl⟩
    · obtain ⟨start, hstart⟩ := (exists_readBound_iff _ .zero _).mpr hstart
      refine .inr ⟨start, hstart, Outcome.bind_eq_error_iff.mpr (.inl ?_)⟩
      exact readBound_eq_error_iff.mpr ⟨literal, hrefused, rfl⟩

theorem readRange_eq_error_iff : readRange condition now = .error e ↔
    ∃ before after, IsFirstCut "time".toList condition before after ∧
      readBounds after now = .error e := by
  unfold readRange
  cases hcut : Text.cut? "time".toList condition with
  | none =>
    refine iff_of_false (by simp) ?_
    rintro ⟨before, after, hfirst, -⟩
    rw [Text.cut?_eq_some_iff.mpr hfirst] at hcut
    cases hcut
  | some parts =>
    have hfirst := Text.cut?_eq_some_iff.mp hcut
    constructor
    · exact fun h => ⟨_, _, hfirst, h⟩
    · rintro ⟨before, after, hfirst', h⟩
      obtain ⟨rfl, rfl⟩ := hfirst.unique hfirst'
      exact h

/-! ## Times and conditions -/

/-- Every text has one literal, which is read as the time that it stands for, or named as the reason
why there is none. A condition is refused exactly for a comparison behind the first letters `time`
whose literal stands for no time, and for that behind `>=` if both are such. -/
theorem times_read_exactly :
    (∀ text, ∃ literal, (∀ l, IsLiteral text l ↔ l = literal) ∧
      (∀ t : Nanos, readTime text = .ok t ↔ StandsFor literal t.toInt) ∧
      ∀ e, readTime text = .error e ↔
        e = .invalidTimeFormat (String.ofList literal) ∧ ¬ ∃ ns, StandsFor literal ns) ∧
    ∀ condition now e, readRange condition now = .error e ↔
      ∃ before after literal, IsFirstCut "time".toList condition before after ∧
        e = .invalidTimeFormat (String.ofList literal) ∧
        (RefusesBound ">=" after literal ∨
          (¬ ∃ l, RefusesBound ">=" after l) ∧ RefusesBound "<=" after literal) := by
  constructor
  · intro text
    exact ⟨timeLiteral text, fun l => isLiteral_iff, fun t => readTime_eq_ok_iff,
      fun e => readTime_eq_error_iff⟩
  · intro condition now e
    rw [readRange_eq_error_iff]
    simp only [readBounds_eq_error_iff]
    constructor
    · rintro ⟨before, after, hfirst, literal, h⟩
      exact ⟨before, after, literal, hfirst, h⟩
    · rintro ⟨before, after, literal, hfirst, h⟩
      exact ⟨before, after, hfirst, literal, h⟩

/-- A count of milliseconds is refused where the same count of nanoseconds is not. -/
example :
    readTime " 9223372036855MSand".toList = .error (.invalidTimeFormat "9223372036855MS") ∧
      readTime " 9223372036855".toList = .ok ⟨9223372036855, by decide, by decide⟩ := by
  decide +kernel

end TimeSeries.Query
