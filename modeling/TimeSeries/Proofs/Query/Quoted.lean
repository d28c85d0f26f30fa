/-
# TimeSeries.Proofs.Query.Quoted — names between quotes.

SELECT takes a name between quotes whole. CREATE DATABASE and USE look for the name in the first
word, so that of a name with blanks only what stands before the first blank is left: `my db` is
taken for `my`, and a name that starts with a blank is refused. All three agree on the names without
blanks (`interpret_quoted`).
-/
import TimeSeries.Proofs.Query.Select
import TimeSeries.Proofs.Query.Session

namespace TimeSeries.Query

open Text (isBlank)

variable {name word s l : List Char} {ps : List Piece} {make : String → Statement}
  {query : String} {now : Nanos}

/-! ## The first part of a name -/

/-- The part of a name that stands before its first blank, without the backslashes at its end. -/
def firstPart (name : List Char) : List Char :=
  Text.stripEnd (· == '\\') (name.takeWhile (!isBlank ·))

theorem firstPart_isPrefix (name : List Char) : firstPart name <+: name.takeWhile (!isBlank ·) :=
  Text.stripEnd_isPrefix _ _

/-- A name is its own first part exactly when it has no blanks. -/
theorem firstPart_eq_self_iff (h : IsQuotable name) :
    firstPart name = name ↔ ∀ c ∈ name, isBlank c = false := by
  constructor
  · intro hself c hc
    rw [← hself] at hc
    have hmem := List.mem_takeWhile_imp ((firstPart_isPrefix name).mem hc)
    simpa using hmem
  · intro hname
    have hlast : ∀ c ∈ name.getLast?, (c == '\\') = false := by
      intro c hc
      rw [beq_eq_false_iff_ne]
      rintro rfl
      exact h.last hc
    have hstrip := Text.stripEnd_append_of_getLast? (r := []) (List.forall_mem_nil _) hlast
    rw [List.append_nil] at hstrip
    rw [firstPart, List.takeWhile_eq_self_iff.mpr (by simpa using hname), hstrip]

/-- A name that only a quote stands before loses that and the backslashes at its end. -/
theorem bareName_quote_cons (hblank : ∀ c ∈ s, isBlank c = false) (hquote : '"' ∉ s)
    (hhead : s.head? ≠ some '\\') : bareName ('"' :: s) = Text.stripEnd (· == '\\') s := by
  have hsolid : ∀ c ∈ '"' :: s, isBlank c = false :=
    List.forall_mem_cons.mpr ⟨by decide, hblank⟩
  have htrim : Text.trim ('"' :: s) = '"' :: s := by
    rw [Text.trim_eq_self_iff]
    exact ⟨fun c hc => hsolid c (List.mem_of_head? hc),
      fun c hc => hsolid c (List.mem_of_getLast? hc)⟩
  have hdrop : ('"' :: s).dropWhile (fun c => c == '"' || c == '\\') = s := by
    refine Text.dropWhile_append_of_head? (l := ['"']) (by simp) fun c hc => ?_
    have hne : c ≠ '"' := fun h => hquote (h ▸ List.mem_of_head? hc)
    have hne' : c ≠ '\\' := fun h => hhead (h ▸ hc)
    simp [hne, hne']
  obtain ⟨r, hr, hs⟩ := Text.exists_stripEnd_append (· == '\\') s
  rw [bareName, htrim, Text.strip, hdrop, ← hs, Text.stripEnd_append_of_getLast?]
  · rw [hs]
  · intro c hc
    simp [beq_iff_eq.mp (hr c hc)]
  · intro c hc
    have hslash := Text.getLast?_stripEnd _ _ c hc
    have hne : c ≠ '"' := fun h =>
      hquote (h ▸ (Text.stripEnd_isPrefix _ s).mem (List.mem_of_getLast? hc))
    rw [hslash, Bool.or_false, beq_eq_false_iff_ne]
    exact hne

/-- The first word ends at the first blank of the name, so the quote behind the name is not in it. -/
theorem firstWord_quoted (hl : ∀ c ∈ l, isBlank c = true) (h : ∃ c ∈ name, isBlank c = true) :
    Text.firstWord (l ++ ('"' :: name ++ ['"'])) = '"' :: name.takeWhile (!isBlank ·) := by
  obtain ⟨hspan, hfront, hrest⟩ :=
    (Text.span_eq_iff (p := (!isBlank ·)) (s := name)).mp ⟨rfl, rfl⟩
  have hne : name.dropWhile (!isBlank ·) ≠ [] := by
    intro hnil
    obtain ⟨c, hc, hblank⟩ := h
    have hsolid := List.dropWhile_eq_nil_iff.mp hnil c hc
    simp [hblank] at hsolid
  generalize name.takeWhile (!isBlank ·) = front at hspan hfront ⊢
  generalize name.dropWhile (!isBlank ·) = rest at hspan hrest hne
  subst hspan
  have hsolid : ∀ c ∈ '"' :: front, isBlank c = false :=
    List.forall_mem_cons.mpr ⟨by decide, by simpa using hfront⟩
  have hstop : ∀ c ∈ (rest ++ ['"']).head?, isBlank c = true := by
    rw [List.head?_append_of_ne_nil _ hne]
    simpa using hrest
  have hword := firstWord_append hl (List.cons_ne_nil _ _) hsolid hstop
  rwa [List.cons_append, List.append_assoc, ← List.cons_append]

/-- The first word of a name between quotes is bared to the first part of the name. -/
theorem bareName_firstWord (h : IsQuotable name) (hl : ∀ c ∈ l, isBlank c = true) :
    bareName (Text.firstWord (l ++ ('"' :: name ++ ['"']))) = firstPart name := by
  by_cases hname : ∀ c ∈ name, isBlank c = false
  · have hsolid : ∀ c ∈ '"' :: name ++ ['"'], isBlank c = false := by
      simp only [List.cons_append, List.forall_mem_cons, List.forall_mem_append]
      exact ⟨by decide, hname, by decide, List.forall_mem_nil _⟩
    have hword := firstWord_append (s := []) hl (by simp) hsolid (by simp)
    have hbare := (WritesName.quoted h).bareName_eq (l := []) (r := []) (by simp) (by simp)
    rw [List.append_nil] at hword
    rw [List.nil_append, List.append_nil] at hbare
    rw [hword, hbare, (firstPart_eq_self_iff h).mpr hname]
  · have hblank : ∃ c ∈ name, isBlank c = true := by simpa using hname
    obtain ⟨rest, hrest⟩ : name.takeWhile (!isBlank ·) <+: name := List.takeWhile_prefix _
    have hquote : '"' ∉ name.takeWhile (!isBlank ·) := fun hmem =>
      h.no_quote ((List.takeWhile_sublist _).mem hmem)
    have hhead : (name.takeWhile (!isBlank ·)).head? ≠ some '\\' := by
      intro hslash
      have hne : name.takeWhile (!isBlank ·) ≠ [] := by
        intro hnil
        rw [hnil] at hslash
        cases hslash
      refine h.head ?_
      rw [← hrest, List.head?_append_of_ne_nil _ hne, hslash]
    rw [firstWord_quoted hl hblank, bareName_quote_cons _ hquote hhead]
    · rfl
    · intro c hc
      simpa using List.mem_takeWhile_imp hc

/-! ## Queries that quote a name -/

/-- A query in pieces behind its first word, with gaps or nothing around it. -/
inductive IsLaidOut (word : List Char) (ps : List Piece) : List Char → Prop
  | intro {front back : List Char} (front_spacing : ∀ c ∈ front, IsSpacing c)
      (back_spacing : ∀ c ∈ back, IsSpacing c) (gapped : ∀ p ∈ ps, p.IsGapped) :
      IsLaidOut word ps (front ++ (word ++ textOf ps) ++ back)

theorem isLaidOut_append (h : ∀ p ∈ ps, p.IsGapped) : IsLaidOut word ps (word ++ textOf ps) := by
  have hlaid : IsLaidOut word ps ([] ++ (word ++ textOf ps) ++ []) :=
    .intro (List.forall_mem_nil _) (List.forall_mem_nil _) h
  rwa [List.nil_append, List.append_nil] at hlaid

/-- The words of an order on a database, which is named between quotes. -/
inductive WritesOrder (name : List Char) :
    (String → Statement) → List Char → List Piece → Prop
  | create {create : List Char} {database named : Piece} (keyword : IsKeyword "create" create)
      (keyword' : IsKeyword "database" database.word)
      (quoted : named.word = '"' :: name ++ ['"']) :
      WritesOrder name .createDatabase create [database, named]
  | use {use : List Char} {named : Piece} (keyword : IsKeyword "use" use)
      (quoted : named.word = '"' :: name ++ ['"']) : WritesOrder name .use use [named]

/-- The words of a selection from a measurement, which is named between quotes. -/
inductive WritesSource (now : Nanos) (name : List Char) :
    (String → Statement) → List Char → List Piece → Prop
  | intro {select : List Char} {selector : Selector} {f : Option Aggregation} {start stop : Nanos}
      {width : Option Nanos} {selected from' source : Piece} {ps : List Piece}
      (keyword : IsKeyword "select" select) (written : WritesSelector selector f selected.word)
      (keyword' : IsKeyword "from" from'.word) (quoted : source.word = '"' :: name ++ ['"'])
      (clauses : WritesClauses now start stop width ps) :
      WritesSource now name
        (fun m => .select ⟨m, selector, f, start, stop, width.or (f.map fun _ => defaultWidth)⟩)
        select (selected :: from' :: source :: ps)

/-- What stands around a query is trimmed away. -/
theorem IsLaidOut.interpret_eq (h : IsLaidOut word ps query.toList) (hword : IsWord word)
    (hps : ∀ p ∈ ps, IsWord p.word) (now : Nanos) :
    interpret query now = interpretTrimmed (word ++ textOf ps) now := by
  rw [interpret]
  generalize query.toList = text at h
  cases h with
  | intro hfront hback hgapped =>
    rw [Text.trim_append_append (fun c hc => (hfront c hc).isBlank)
      (fun c hc => (hback c hc).isBlank) (by simp [hword.ne_nil])
      ((Text.startsSolid_append hword.ne_nil).mpr hword.starts)]
    obtain htext | htext := eq_or_ne (textOf ps) []
    · rw [htext, List.append_nil]
      exact hword.ends
    · have hspaced : ∀ p ∈ ps, p.IsSpaced := fun p hp => (hgapped p hp).isSpaced (hps p hp)
      exact (Text.endsSolid_append htext).mpr (endsSolid_textOf hspaced)

theorem IsLaidOut.isGapped {text : List Char} (h : IsLaidOut word ps text) :
    ∀ p ∈ ps, p.IsGapped := by
  cases h with
  | intro _ _ hgapped => exact hgapped

theorem dropGap?_textOf {p : Piece} (hp : p.IsGapped) (hword : IsWord p.word) (ps : List Piece) :
    dropGap? (textOf (p :: ps)) = some (p.word ++ textOf ps) := by
  have hsolid : ∀ c ∈ (p.word ++ textOf ps).head?, isGap c = false := by
    intro c hc
    rw [List.head?_append_of_ne_nil _ hword.ne_nil] at hc
    exact isGap_eq_false_of_isBlank (hword.starts c hc)
  obtain ⟨hne, hspacing⟩ := hp
  rw [textOf_cons]
  cases hgap : p.gap with
  | nil => exact absurd hgap hne
  | cons c gap =>
    rw [hgap, List.forall_mem_cons] at hspacing
    rw [List.cons_append, dropGap?, if_pos hspacing.1.isGap, dropGap,
      Text.dropWhile_append_of_head? (fun d hd => (hspacing.2 d hd).isGap) hsolid]

theorem head?_textOf_isNameChar {p : Piece} (hp : p.IsGapped) (ps : List Piece) :
    ∀ c ∈ (textOf (p :: ps)).head?, Text.isNameChar c = false := by
  intro c hc
  rw [textOf_cons, List.head?_append_of_ne_nil _ hp.1] at hc
  exact Text.isNameChar_of_isBlank (hp.isBlank c (List.mem_of_head? hc))

theorem readName?_textOf {named : Piece} (h : IsQuotable name) (hgap : named.IsGapped)
    (hquoted : named.word = '"' :: name ++ ['"']) :
    readName? (textOf [named]) =
      if firstPart name = [] then none else some (String.ofList (firstPart name)) := by
  have hbare := bareName_firstWord h hgap.isBlank
  rw [textOf_cons, textOf_nil, List.append_nil, hquoted, readName?, hbare]
  simp only [List.isEmpty_iff]

theorem WritesOrder.interpretTrimmed_eq (hw : WritesOrder name make word ps) (h : IsQuotable name)
    (hps : ∀ p ∈ ps, p.IsGapped) (now : Nanos) :
    interpretTrimmed (word ++ textOf ps) now =
      if firstPart name = [] then .error (.invalidSyntax (String.ofList (word ++ textOf ps)))
      else .ok (make (String.ofList (firstPart name))) := by
  cases hw with
  | @create word database named hword hdatabase hquoted =>
    simp only [List.forall_mem_cons] at hps
    obtain ⟨hgap, hgap', -⟩ := hps
    have hread : readCreate? (textOf [database, named]) = readName? (textOf [named]) := by
      rw [readCreate?, dropGap?_textOf hgap hdatabase.isWord, Option.bind_some,
        keyword?_eq_some hdatabase (head?_textOf_isNameChar hgap' []), Option.bind_some]
    rw [interpretTrimmed_of_create (keyword?_eq_some hword (head?_textOf_isNameChar hgap _)), hread,
      readName?_textOf h hgap' hquoted]
    split <;> rfl
  | @use word named hword hquoted =>
    have hgap := hps named List.mem_cons_self
    rw [interpretTrimmed_of_use (keyword?_eq_some hword (head?_textOf_isNameChar hgap _)),
      readName?_textOf h hgap hquoted]
    split <;> rfl

theorem WritesOrder.isWord (hw : WritesOrder name make word ps) (h : IsQuotable name) :
    IsWord word ∧ ∀ p ∈ ps, IsWord p.word := by
  have hquoted := (WritesName.quoted h).isWord
  cases hw with
  | create hword hdatabase hnamed =>
    simp only [List.forall_mem_cons, hnamed]
    exact ⟨hword.isWord, hdatabase.isWord, hquoted, List.forall_mem_nil _⟩
  | use hword hnamed =>
    simp only [List.forall_mem_cons, hnamed]
    exact ⟨hword.isWord, hquoted, List.forall_mem_nil _⟩

/-- An order is read with the first part of its name, and refused if there is none. -/
theorem WritesOrder.interpret_eq (hw : WritesOrder name make word ps) (h : IsQuotable name)
    (hquery : IsLaidOut word ps query.toList) (now : Nanos) :
    interpret query now =
      if firstPart name = [] then .error (.invalidSyntax (String.ofList (word ++ textOf ps)))
      else .ok (make (String.ofList (firstPart name))) := by
  obtain ⟨hword, hps⟩ := hw.isWord h
  rw [hquery.interpret_eq hword hps, hw.interpretTrimmed_eq h hquery.isGapped]

theorem WritesOrder.make_injective (hw : WritesOrder name make word ps) :
    Function.Injective make := by
  cases hw with
  | create => exact fun _ _ => Statement.createDatabase.inj
  | use => exact fun _ _ => Statement.use.inj

/-- A name without blanks is taken whole, and no other is. -/
theorem WritesOrder.interpret_eq_ok_iff (hw : WritesOrder name make word ps) (h : IsQuotable name)
    (hquery : IsLaidOut word ps query.toList) (now : Nanos) :
    interpret query now = .ok (make (String.ofList name)) ↔ ∀ c ∈ name, isBlank c = false := by
  rw [hw.interpret_eq h hquery, ← firstPart_eq_self_iff h]
  constructor
  · intro hread
    split at hread
    · cases hread
    · exact String.ofList_injective (hw.make_injective (Except.ok.inj hread))
  · intro hself
    rw [hself, if_neg h.ne_nil]

/-- A selection is read with the whole name. -/
theorem WritesSource.interpret_eq (hw : WritesSource now name make word ps) (h : IsQuotable name)
    (hquery : IsLaidOut word ps query.toList) :
    interpret query now = .ok (make (String.ofList name)) := by
  cases hw with
  | @intro _ selector f start stop width selected from' source ps hword hselected hfrom hquoted
      hclauses =>
    have hsource : WritesName name source.word := hquoted ▸ .quoted h
    have hselect := WritesSelect.intro hselected hfrom hsource hclauses
    have hgapped := hquery.isGapped
    rw [hquery.interpret_eq hword.isWord hselect.isWord]
    exact interpretTrimmed_select hword
      (head?_textOf_isNameChar (hgapped selected List.mem_cons_self) _)
      (hselect.readSelect_eq hgapped)

/-! ## Databases -/

/-- Databases are shown that were there before, and the one that the name is taken for. -/
theorem exists_databases_of_create {σ : Type} [PointStore σ]
    (hw : WritesOrder name .createDatabase word ps) (h : IsQuotable name)
    (hquery : IsLaidOut word ps query.toList) (now : Nanos) (store : σ) (session : Session) :
    ∃ names, (Session.execute store (session.executeText store query now).2 .showDatabases).1 =
        .ok (.databases names) ∧
      ∀ n, n ∈ names ↔ n ∈ session.databases ∨
        firstPart name ≠ [] ∧ n = String.ofList (firstPart name) := by
  refine ⟨_, rfl, fun n => ?_⟩
  rw [Std.TreeSet.mem_toList, Session.mem_databases_executeText, hw.interpret_eq h hquery]
  refine or_congr_right ?_
  split
  · rename_i hpart
    simp [hpart]
  · rename_i hpart
    simp [hpart, eq_comm]

/-- A name between quotes is the name that a selection selects from. An order takes the first part
of it, up to a blank, and is refused without one. So it takes the whole name exactly when there is
no blank in it, and a database is shown under that first part once it is created. -/
theorem interpret_quoted (h : IsQuotable name) :
    (∀ now make word ps query, WritesSource now name make word ps →
      IsLaidOut word ps query.toList → interpret query now = .ok (make (String.ofList name))) ∧
    (∀ now make word ps query, WritesOrder name make word ps → IsLaidOut word ps query.toList →
      interpret query now =
          (if firstPart name = [] then .error (.invalidSyntax (String.ofList (word ++ textOf ps)))
          else .ok (make (String.ofList (firstPart name)))) ∧
        (interpret query now = .ok (make (String.ofList name)) ↔
          ∀ c ∈ name, isBlank c = false)) ∧
    ∀ {σ : Type} [PointStore σ] (store : σ) (session : Session) now word ps query,
      WritesOrder name .createDatabase word ps → IsLaidOut word ps query.toList →
      ∃ names, (Session.execute store (session.executeText store query now).2 .showDatabases).1 =
          .ok (.databases names) ∧
        ∀ n, n ∈ names ↔ n ∈ session.databases ∨
          firstPart name ≠ [] ∧ n = String.ofList (firstPart name) := by
  refine ⟨fun now make word ps query hw hquery => hw.interpret_eq h hquery,
    fun now make word ps query hw hquery => ⟨hw.interpret_eq h hquery now,
      hw.interpret_eq_ok_iff h hquery now⟩, ?_⟩
  intro σ _ store session now word ps query hw hquery
  exact exists_databases_of_create hw h hquery now store session

theorem isQuotable_spaced : IsQuotable "my db".toList :=
  ⟨by decide, by decide, by decide, by decide⟩

/-- The name as the last word of an order. -/
def spaced : Piece := ⟨[' '], '"' :: "my db".toList ++ ['"']⟩

/-- CREATE DATABASE and the name. -/
def createQuery : String := "Create database \"my db\""

theorem interpret_quoted_spaced :
    IsQuotable "my db".toList ∧ interpret createQuery .zero = .ok (.createDatabase "my") ∧
      ∃ names, (Session.execute SeriesStore.empty ((Session.start "db").executeText
          SeriesStore.empty createQuery .zero).2 .showDatabases).1 = .ok (.databases names) ∧
        ∀ n, n ∈ names ↔ n ∈ (Session.start "db").databases ∨ n = "my" := by
  have hw : WritesOrder "my db".toList .createDatabase "Create".toList
      [⟨[' '], "database".toList⟩, spaced] := .create (by decide) (by decide) rfl
  have hquery : IsLaidOut "Create".toList [⟨[' '], "database".toList⟩, spaced]
      createQuery.toList := by
    have htext : createQuery.toList =
        "Create".toList ++ textOf [⟨[' '], "database".toList⟩, spaced] := by decide
    rw [htext]
    exact isLaidOut_append (by simp [spaced, Piece.IsGapped, IsSpacing])
  have hpart : firstPart "my db".toList = "my".toList := by decide
  obtain ⟨-, horder, hshown⟩ := interpret_quoted isQuotable_spaced
  obtain ⟨hread, -⟩ := horder .zero _ _ _ _ hw hquery
  obtain ⟨names, hnames, hmem⟩ :=
    hshown SeriesStore.empty (Session.start "db") .zero _ _ _ hw hquery
  rw [hpart] at hread
  refine ⟨isQuotable_spaced, hread, names, hnames, fun n => ?_⟩
  rw [hmem, hpart, String.ofList_toList]
  simp

/-- A name of two words is not taken whole. -/
theorem not_interpret_quoted :
    ¬ ∀ (name : List Char) (make : String → Statement) (word : List Char) (ps : List Piece)
      (query : String), IsQuotable name → WritesOrder name make word ps →
        IsLaidOut word ps query.toList →
          interpret query .zero = .ok (make (String.ofList name)) := by
  intro h
  have hw : WritesOrder "my db".toList .use "USE".toList [spaced] := .use (by decide) rfl
  have hquery : IsLaidOut "USE".toList [spaced] "USE \"my db\"".toList := by
    have htext : "USE \"my db\"".toList = "USE".toList ++ textOf [spaced] := by decide
    rw [htext]
    exact isLaidOut_append (by simp [spaced, Piece.IsGapped, IsSpacing])
  have hread : interpret "USE \"my db\"" .zero = .ok (.use "my") := by decide +kernel
  rw [h _ _ _ _ _ isQuotable_spaced hw hquery] at hread
  revert hread
  decide

end TimeSeries.Query
