/-
# TimeSeries.Proofs.Text.Slice — places in the bytes of a text.

A text is kept as its bytes in UTF-8, and a place in it is a number of bytes. Between two places
there is a piece of the text only if both lie in the text and between characters, and the first is
not behind the second (`isSome_slice?_iff`); a piece cut out anywhere else is no text. Readers that
walk over the bytes one by one stop at bytes of ASCII characters. No other character has such a byte
in it, so they stop between characters, where a reader of characters stops.
-/
import TimeSeries.Proofs.Text.ByteOrder
import TimeSeries.Proofs.Text.Case

namespace TimeSeries.Text

variable {s t front rest stops : List Char} {i j : Nat} {c : Char}

/-! ## Bytes -/

/-- The bytes of a text in UTF-8. -/
def bytes (s : List Char) : List UInt8 := s.flatMap String.utf8EncodeChar

/-- The number of bytes of a text. -/
def size (s : List Char) : Nat := (bytes s).length

theorem bytes_cons (c : Char) (s : List Char) :
    bytes (c :: s) = String.utf8EncodeChar c ++ bytes s := rfl

theorem bytes_append (s t : List Char) : bytes (s ++ t) = bytes s ++ bytes t := List.flatMap_append

@[simp] theorem size_nil : size [] = 0 := rfl

theorem size_cons (c : Char) (s : List Char) : size (c :: s) = c.utf8Size + size s := by
  rw [size, bytes_cons, List.length_append, String.length_utf8EncodeChar]
  rfl

theorem size_append (s t : List Char) : size (s ++ t) = size s + size t := by
  rw [size, bytes_append, List.length_append]
  rfl

theorem size_eq_zero_iff : size s = 0 ↔ s = [] := by
  cases s with
  | nil => simp
  | cons c s =>
    have := c.utf8Size_pos
    rw [size_cons]
    simp only [List.cons_ne_nil, iff_false]
    omega

theorem size_eq_utf8ByteSize (s : List Char) : size s = (String.ofList s).utf8ByteSize := by
  have h := utf8_eq_flatMap (String.ofList s)
  rw [String.toList_ofList] at h
  rw [size, bytes, ← h]
  rfl

/-! ## Pieces -/

/-- The text before and behind a place, if it lies in the text and between characters. -/
def cutAt? : List Char → Nat → Option (List Char × List Char)
  | s, 0 => some ([], s)
  | [], _ + 1 => none
  | c :: s, n + 1 =>
    if c.utf8Size ≤ n + 1 then
      (cutAt? s (n + 1 - c.utf8Size)).map fun (front, rest) => (c :: front, rest)
    else none

/-- The text between two places. -/
def slice? (s : List Char) (i j : Nat) : Option (List Char) :=
  if i ≤ j then (cutAt? s j).bind fun (front, _) => (cutAt? front i).map Prod.snd else none

theorem cutAt?_eq_some_iff :
    cutAt? s i = some (front, rest) ↔ s = front ++ rest ∧ i = size front := by
  fun_induction cutAt? s i generalizing front with
  | case1 s =>
    constructor
    · intro h
      obtain ⟨rfl, rfl⟩ := Prod.mk.inj (Option.some.inj h)
      exact ⟨rfl, rfl⟩
    · rintro ⟨rfl, hi⟩
      cases front with
      | nil => rfl
      | cons c front =>
        have := c.utf8Size_pos
        rw [size_cons] at hi
        omega
  | case2 n =>
    refine iff_of_false (by simp) ?_
    rintro ⟨h, hn⟩
    rw [(List.append_eq_nil_iff.mp h.symm).1] at hn
    cases hn
  | case3 c s n hle ih =>
    constructor
    · intro h
      obtain ⟨⟨front', rest'⟩, hcut, he⟩ := Option.map_eq_some_iff.mp h
      obtain ⟨rfl, rfl⟩ := Prod.mk.inj he
      obtain ⟨rfl, hsize⟩ := ih.mp hcut
      refine ⟨rfl, ?_⟩
      rw [size_cons]
      omega
    · rintro ⟨he, hsize⟩
      cases front with
      | nil => cases hsize
      | cons d front =>
        obtain ⟨rfl, rfl⟩ := List.cons.inj he
        rw [size_cons] at hsize
        exact Option.map_eq_some_iff.mpr ⟨_, ih.mpr ⟨rfl, by omega⟩, rfl⟩
  | case4 c s n hle =>
    refine iff_of_false (by simp) ?_
    rintro ⟨he, hsize⟩
    cases front with
    | nil => cases hsize
    | cons d front =>
      obtain ⟨rfl, -⟩ := List.cons.inj he
      rw [size_cons] at hsize
      omega

/-- The piece between two places is what stands behind the text of one size, up to that of another. -/
theorem slice?_eq_some_iff :
    slice? s i j = some t ↔
      ∃ before after, s = before ++ (t ++ after) ∧ i = size before ∧ j = size (before ++ t) := by
  unfold slice?
  constructor
  · intro h
    split at h
    · obtain ⟨⟨front, after⟩, hfront, h⟩ := Option.bind_eq_some_iff.mp h
      obtain ⟨⟨before, t'⟩, hbefore, rfl⟩ := Option.map_eq_some_iff.mp h
      obtain ⟨rfl, rfl⟩ := cutAt?_eq_some_iff.mp hfront
      obtain ⟨rfl, rfl⟩ := cutAt?_eq_some_iff.mp hbefore
      exact ⟨before, after, by rw [List.append_assoc], rfl, rfl⟩
    · cases h
  · rintro ⟨before, after, rfl, rfl, rfl⟩
    rw [if_pos (by rw [size_append]; omega), Option.bind_eq_some_iff]
    refine ⟨(before ++ t, after), cutAt?_eq_some_iff.mpr ⟨by rw [List.append_assoc], rfl⟩, ?_⟩
    exact Option.map_eq_some_iff.mpr ⟨_, cutAt?_eq_some_iff.mpr ⟨rfl, rfl⟩, rfl⟩

theorem isValid_iff_exists_append :
    String.Pos.Raw.IsValid (String.ofList s) ⟨i⟩ ↔ ∃ front rest, s = front ++ rest ∧ i = size front := by
  rw [String.Pos.Raw.isValid_ofList]
  constructor
  · rintro ⟨n, hn⟩
    exact ⟨s.take n, s.drop n, (List.take_append_drop n s).symm, by rw [size_eq_utf8ByteSize]; exact hn⟩
  · rintro ⟨front, rest, rfl, rfl⟩
    exact ⟨front.length, by rw [List.take_left, ← size_eq_utf8ByteSize]⟩

/-- A piece can be cut out exactly between two valid places that are not in the wrong order: valid
is the end of the text, and a byte before it that is the first of its character. -/
theorem isSome_slice?_iff :
    (slice? s i j).isSome = true ↔
      i ≤ j ∧ String.Pos.Raw.IsValid (String.ofList s) ⟨i⟩ ∧
        String.Pos.Raw.IsValid (String.ofList s) ⟨j⟩ := by
  rw [Option.isSome_iff_exists, isValid_iff_exists_append, isValid_iff_exists_append]
  constructor
  · rintro ⟨t, h⟩
    obtain ⟨before, after, rfl, rfl, rfl⟩ := slice?_eq_some_iff.mp h
    refine ⟨by rw [size_append]; omega, ⟨before, _, rfl, rfl⟩, before ++ t, after, ?_, rfl⟩
    rw [List.append_assoc]
  · rintro ⟨hle, ⟨before, rest, rfl, rfl⟩, front, after, he, rfl⟩
    -- Of two texts that start one text, the one with fewer bytes starts the other.
    rcases List.append_eq_append_iff.mp he with ⟨t, rfl, rfl⟩ | ⟨t, rfl, rfl⟩
    · exact ⟨t, slice?_eq_some_iff.mpr ⟨before, after, rfl, rfl, rfl⟩⟩
    · obtain rfl : t = [] := by
        rw [← size_eq_zero_iff]
        rw [size_append] at hle
        omega
      rw [List.append_nil]
      exact ⟨[], slice?_eq_some_iff.mpr ⟨front, rest, rfl, rfl, by rw [List.append_nil]⟩⟩

/-! ## Bytes of ASCII characters -/

theorem utf8EncodeChar_of_lt (h : c.toNat < 128) : String.utf8EncodeChar c = [c.toUInt8] := by
  apply String.utf8EncodeChar_eq_singleton
  rw [Char.utf8Size_eq_one_iff, UInt32.le_iff_toNat_le]
  exact Nat.le_of_lt_succ h

theorem utf8Size_of_lt (h : c.toNat < 128) : c.utf8Size = 1 := by
  rw [← String.length_utf8EncodeChar, utf8EncodeChar_of_lt h]
  rfl

/-- All bytes of a longer character are greater than those of ASCII. -/
theorem le_of_mem_utf8EncodeChar (h : 128 ≤ c.toNat) :
    ∀ b ∈ String.utf8EncodeChar c, 128 ≤ b.toNat := by
  have hc : 128 ≤ c.val.toNat := h
  unfold String.utf8EncodeChar
  generalize c.val.toNat = v at hc
  dsimp only
  split_ifs
  · omega
  all_goals
    simp only [List.forall_mem_cons, List.not_mem_nil, IsEmpty.forall_iff,
      implies_true, and_true, UInt8.toNat_ofNat']
    omega

theorem toNat_toUInt8 (h : c.toNat < 128) : c.toUInt8.toNat = c.toNat := by
  rw [Char.toUInt8, UInt32.toNat_toUInt8]
  exact Nat.mod_eq_of_lt (Nat.lt_of_lt_of_le h (by decide))

/-- Only in the character itself is there the byte of an ASCII character. -/
theorem toUInt8_mem_utf8EncodeChar_iff {d : Char} (hc : c.toNat < 128) :
    c.toUInt8 ∈ String.utf8EncodeChar d ↔ c = d := by
  by_cases hd : d.toNat < 128
  · rw [utf8EncodeChar_of_lt hd, List.mem_singleton, ← UInt8.toNat_inj, toNat_toUInt8 hc,
      toNat_toUInt8 hd, Char.toNat_inj]
  · constructor
    · intro hmem
      have := le_of_mem_utf8EncodeChar (Nat.le_of_not_lt hd) _ hmem
      rw [toNat_toUInt8 hc] at this
      omega
    · rintro rfl
      exact absurd hc hd

theorem toUInt8_mem_bytes_iff (hc : c.toNat < 128) : c.toUInt8 ∈ bytes s ↔ c ∈ s := by
  rw [bytes, List.mem_flatMap]
  constructor
  · rintro ⟨d, hd, hmem⟩
    rwa [(toUInt8_mem_utf8EncodeChar_iff hc).mp hmem]
  · intro h
    exact ⟨c, h, (toUInt8_mem_utf8EncodeChar_iff hc).mpr rfl⟩

theorem toNat_lt_of_mem_bytes (hs : ∀ c ∈ s, c.toNat < 128) {b : UInt8} (hb : b ∈ bytes s) :
    b.toNat < 128 := by
  obtain ⟨c, hc, hmem⟩ := List.mem_flatMap.mp hb
  rw [utf8EncodeChar_of_lt (hs c hc), List.mem_singleton] at hmem
  rw [hmem, toNat_toUInt8 (hs c hc)]
  exact hs c hc

/-! ## Readers at a place -/

/-- What stands in a text from a place on. -/
def At (s : List Char) (i : Nat) (rest : List Char) : Prop :=
  ∃ front, s = front ++ rest ∧ i = size front

theorem At.start (s : List Char) : At s 0 s := ⟨[], rfl, rfl⟩

theorem At.size_add (h : At s i rest) : i + size rest = size s := by
  obtain ⟨front, rfl, rfl⟩ := h
  rw [size_append]

theorem At.append (h : At s i (t ++ rest)) : At s (i + size t) rest := by
  obtain ⟨front, rfl, rfl⟩ := h
  exact ⟨front ++ t, by rw [List.append_assoc], by rw [size_append]⟩

/-- An ASCII character is one byte long. -/
theorem At.tail (h : At s i (c :: rest)) (hc : c.toNat < 128) : At s (i + 1) rest := by
  have hsize : size [c] = 1 := by rw [size_cons, utf8Size_of_lt hc, size_nil]
  rw [← hsize]
  exact At.append h

theorem At.slice?_eq (h : At s i (t ++ rest)) : slice? s i (i + size t) = some t := by
  obtain ⟨front, rfl, rfl⟩ := h
  exact slice?_eq_some_iff.mpr ⟨front, rest, rfl, rfl, by rw [size_append]⟩

theorem At.slice?_size (h : At s i rest) : slice? s i (size s) = some rest := by
  rw [← List.append_nil rest] at h
  have hslice := h.slice?_eq
  have hsize := h.size_add
  rw [List.append_nil] at hsize
  rwa [hsize] at hslice

theorem At.drop_bytes (h : At s i rest) : (bytes s).drop i = bytes rest := by
  obtain ⟨front, rfl, rfl⟩ := h
  rw [bytes_append, size, List.drop_left]

theorem At.getElem?_eq (h : At s i rest) : (bytes s)[i]? = (bytes rest).head? := by
  rw [← h.drop_bytes, List.head?_drop]

theorem head?_bytes_eq_iff (hc : c.toNat < 128) :
    (bytes s).head? = some c.toUInt8 ↔ s.head? = some c := by
  cases s with
  | nil => simp [bytes]
  | cons d s =>
    obtain ⟨b, bs, hd⟩ := List.exists_cons_of_ne_nil (String.utf8EncodeChar_ne_nil (c := d))
    rw [bytes_cons, hd, List.cons_append, List.head?_cons, List.head?_cons, Option.some_inj,
      Option.some_inj]
    constructor
    · rintro rfl
      refine ((toUInt8_mem_utf8EncodeChar_iff hc).mp ?_).symm
      rw [hd]
      exact List.mem_cons_self
    · rintro rfl
      rw [utf8EncodeChar_of_lt hc] at hd
      exact (List.cons.inj hd).1.symm

/-- The next byte is that of an ASCII character exactly where the character stands. -/
theorem At.getElem?_eq_iff (h : At s i rest) (hc : c.toNat < 128) :
    (bytes s)[i]? = some c.toUInt8 ↔ rest.head? = some c := by
  rw [h.getElem?_eq, head?_bytes_eq_iff hc]

/-- Among the bytes of ASCII characters is the byte that starts a text only if the text starts with
one of the characters. -/
theorem At.all_getElem? (h : At s i rest) (hstops : ∀ c ∈ stops, c.toNat < 128) :
    ((bytes s)[i]?.all (· ∈ bytes stops)) = rest.head?.all (· ∈ stops) := by
  rw [h.getElem?_eq]
  cases rest with
  | nil => rfl
  | cons c rest =>
    obtain ⟨b, bs, hc⟩ := List.exists_cons_of_ne_nil (String.utf8EncodeChar_ne_nil (c := c))
    rw [bytes_cons, hc, List.cons_append, List.head?_cons, List.head?_cons, Option.all_some,
      Option.all_some, decide_eq_decide]
    constructor
    · intro hb
      obtain ⟨d, hd, hmem⟩ := List.mem_flatMap.mp hb
      rw [utf8EncodeChar_of_lt (hstops d hd), List.mem_singleton] at hmem
      subst hmem
      have hdc := (toUInt8_mem_utf8EncodeChar_iff (d := c) (hstops d hd)).mp (by
        rw [hc]
        exact List.mem_cons_self)
      rwa [← hdc]
    · intro hmem
      rw [utf8EncodeChar_of_lt (hstops c hmem)] at hc
      obtain rfl := (List.cons.inj hc).1
      exact (toUInt8_mem_bytes_iff (hstops c hmem)).mpr hmem

/-- Up to a byte of some ASCII characters stands what stands up to one of the characters. -/
theorem takeWhile_bytes (hstops : ∀ c ∈ stops, c.toNat < 128) (s : List Char) :
    (bytes s).takeWhile (· ∉ bytes stops) = bytes (s.takeWhile (· ∉ stops)) := by
  induction s with
  | nil => rfl
  | cons c s ih =>
    rw [bytes_cons]
    by_cases hc : c ∈ stops
    · have hb := (toUInt8_mem_bytes_iff (hstops c hc)).mpr hc
      rw [utf8EncodeChar_of_lt (hstops c hc), List.singleton_append,
        List.takeWhile_cons_of_neg (by simpa using hb),
        List.takeWhile_cons_of_neg (by simpa using hc)]
      rfl
    · have hbytes : ∀ b ∈ String.utf8EncodeChar c, decide (b ∉ bytes stops) = true := by
        intro b hb
        rw [decide_eq_true_eq, bytes, List.mem_flatMap]
        rintro ⟨d, hd, hmem⟩
        rw [utf8EncodeChar_of_lt (hstops d hd), List.mem_singleton] at hmem
        subst hmem
        obtain rfl := (toUInt8_mem_utf8EncodeChar_iff (hstops d hd)).mp hb
        exact hc hd
      rw [List.takeWhile_append_of_pos hbytes, ih, List.takeWhile_cons_of_pos (by simpa using hc),
        bytes_cons]

/-! ## Places behind a number of characters -/

theorem at_take (s : List Char) (n : Nat) : At s (size (s.take n)) (s.drop n) :=
  ⟨s.take n, (List.take_append_drop n s).symm, rfl⟩

theorem size_take_le (s : List Char) {m n : Nat} (h : m ≤ n) :
    size (s.take m) ≤ size (s.take n) := by
  have hsplit := congrArg size (List.take_append_drop m (s.take n))
  rw [size_append, List.take_take, Nat.min_eq_left h] at hsplit
  omega

theorem size_take_lt_iff {m n : Nat} (hn : n ≤ s.length) :
    size (s.take m) < size (s.take n) ↔ m < n := by
  constructor
  · intro h
    by_contra hle
    exact absurd (size_take_le s (Nat.le_of_not_lt hle)) (Nat.not_le_of_lt h)
  · intro h
    have hsplit := congrArg size (List.take_append_drop m (s.take n))
    rw [size_append, List.take_take, Nat.min_eq_left (Nat.le_of_lt h)] at hsplit
    have hne : size ((s.take n).drop m) ≠ 0 := by
      rw [ne_eq, size_eq_zero_iff, List.drop_eq_nil_iff, List.length_take]
      omega
    omega

theorem size_take_min (s : List Char) (m n : Nat) :
    size (s.take (min m n)) = min (size (s.take m)) (size (s.take n)) := by
  rcases Nat.le_total m n with h | h
  · rw [Nat.min_eq_left h, Nat.min_eq_left (size_take_le s h)]
  · rw [Nat.min_eq_right h, Nat.min_eq_right (size_take_le s h)]

/-! ## Cutting as a step -/

/-- The piece between two places; a computation that cuts elsewhere gives up. -/
def piece {ε : Type} (s : List Char) (i j : Nat) : ExceptT ε Option (List Char) :=
  ExceptT.mk ((slice? s i j).map .ok)

theorem piece_eq {ε : Type} (h : slice? s i j = some t) :
    (piece s i j : ExceptT ε Option _) = pure t := by
  rw [piece, h]
  rfl

theorem slice?_of_piece {ε : Type} (h : (piece s i j : ExceptT ε Option _) = pure t) :
    slice? s i j = some t := by
  obtain ⟨t', hslice, ht⟩ := Option.map_eq_some_iff.mp h
  obtain rfl := Except.ok.inj ht
  exact hslice

/-- A cut gives up exactly where there is no piece. -/
theorem isSome_run_piece_iff {ε : Type} :
    (piece s i j : ExceptT ε Option _).run.isSome = true ↔
      i ≤ j ∧ String.Pos.Raw.IsValid (String.ofList s) ⟨i⟩ ∧
        String.Pos.Raw.IsValid (String.ofList s) ⟨j⟩ := by
  rw [← isSome_slice?_iff, piece, ExceptT.run_mk, Option.isSome_map]

/-- What stands between two places is what is left at the first and not at the second. -/
theorem At.piece_eq {ε : Type} (h : At s i (t ++ rest)) (hj : At s j rest) :
    (piece s i j : ExceptT ε Option _) = pure t := by
  have hsize := h.size_add
  rw [size_append, ← hj.size_add] at hsize
  obtain rfl : j = i + size t := by omega
  exact Text.piece_eq h.slice?_eq

theorem At.piece_size {ε : Type} (h : At s i rest) :
    (piece s i (size s) : ExceptT ε Option _) = pure rest :=
  Text.piece_eq h.slice?_size

end TimeSeries.Text
