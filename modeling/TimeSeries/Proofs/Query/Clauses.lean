/-
# TimeSeries.Proofs.Query.Clauses — the clauses that are cut out of a written query.

The words of a query stand at the places where its pieces were put, so the words FROM, WHERE and
GROUP BY that are found are those that were written. What is cut out between them is the selector,
the name, the time range and the width, each with gaps around it.
-/
import TimeSeries.Proofs.Query.Parts

namespace TimeSeries.Query

/-! ## Pieces that are spaced -/

theorem IsSpacing.isBreak {c : Char} (h : IsSpacing c) : isBreak c = true := by
  rcases h with rfl | rfl | rfl <;> decide

theorem Piece.IsGapped.isSpaced {p : Piece} (h : p.IsGapped) (hw : IsWord p.word) : p.IsSpaced :=
  ⟨h.1, fun c hc => (h.2 c hc).isBreak, hw⟩

theorem Piece.IsGapped.isBlank {p : Piece} (h : p.IsGapped) : ∀ c ∈ p.gap, Text.isBlank c = true :=
  fun c hc => (h.2 c hc).isBlank

/-! ## The order of places -/

theorem start_after_lt {p : Piece} (hp : p.word ≠ []) (before between : List Piece) (q : Piece) :
    (p.after before).start < (q.after (before ++ p :: between)).start := by
  have hlength := List.length_pos_iff.mpr hp
  simp only [Piece.after, textOf_append, textOf_cons, List.length_append]
  omega

theorem start_after_le (before behind : List Piece) (p : Piece) :
    (p.after before).start ≤ (textOf (before ++ p :: behind)).length := by
  simp only [Piece.after, textOf_append, textOf_cons, List.length_append]
  omega

/-! ## Cutting out the clauses -/

section Cut

variable {now start stop : Nanos} {width : Option Nanos} {selected from' source : Piece}
  {ps qs : List Piece}

theorem dropWhile_placed (hselected : ¬ IsKeyword "from" selected.word)
    (hfrom : IsKeyword "from" from'.word) :
    (placed [] (selected :: from' :: ps)).dropWhile (!·.is "from") =
      from'.after [selected] :: placed [selected, from'] ps := by
  have hother : (selected.after []).is "from" = false := by
    rw [Bool.eq_false_iff, Ne, Word.is_iff]
    exact hselected
  have hfound : (from'.after [selected]).is "from" = true := Word.is_iff.mpr hfrom
  rw [placed, placed, List.nil_append, List.dropWhile_cons_of_pos (by simp [hother]),
    List.dropWhile_cons_of_neg (by simp [hfound])]
  rfl

/-- The clauses, by where WHERE and GROUP BY are found. -/
theorem clauses?_textOf {whereWord : Option Word} {groupBy : Option (Word × Word)}
    (hps : ∀ p ∈ selected :: from' :: ps, p.IsSpaced)
    (hselected : ¬ IsKeyword "from" selected.word) (hfrom : IsKeyword "from" from'.word)
    (hwhere : (placed [selected, from'] ps).find? (·.is "where") = whereWord)
    (hgroup : findGroupBy? (placed [selected, from'] ps) = groupBy) :
    let body := textOf (selected :: from' :: ps)
    let whereStart := (whereWord.map Word.start).getD body.length
    let groupStart := (groupBy.map (·.1.start)).getD body.length
    clauses? body = some {
      selector := textOf [selected] ++ from'.gap
      source := slice body (textOf [selected, from']).length (min whereStart groupStart)
      condition := whereWord.map fun w =>
        slice body w.stop (if w.start < groupStart then groupStart else body.length)
      grouping := groupBy.map fun g => body.drop g.2.stop } := by
  have hslice : slice (textOf (selected :: from' :: ps)) 0 (from'.after [selected]).start =
      textOf [selected] ++ from'.gap := slice_textOf [] [selected] ps from'
  intro body whereStart groupStart
  rw [clauses?, words_textOf hps, dropWhile_placed hselected hfrom]
  simp only [hwhere, hgroup, body, hslice, stop_after]
  rfl

variable {where' group by' minutes : Piece}

theorem not_group_of_where (hsource : ¬ IsKeyword "group" source.word)
    (hwhere : IsKeyword "where" where'.word) (hbounds : ∀ p ∈ ps, ¬ IsKeyword "group" p.word) :
    ∀ p ∈ source :: where' :: ps, ¬ IsKeyword "group" p.word := by
  simp only [List.forall_mem_cons]
  exact ⟨hsource, hwhere.ne (by decide), hbounds⟩

theorem not_where_of_group (hsource : ¬ IsKeyword "where" source.word)
    (hgroup : IsKeyword "group" group.word) (hby : IsKeyword "by" by'.word)
    (hminutes : ¬ IsKeyword "where" minutes.word) :
    ∀ p ∈ [source, group, by', minutes], ¬ IsKeyword "where" p.word := by
  simp only [List.forall_mem_cons]
  exact ⟨hsource, hgroup.ne (by decide), hby.ne (by decide), hminutes, List.forall_mem_nil _⟩

variable (hselected : ¬ IsKeyword "from" selected.word) (hfrom : IsKeyword "from" from'.word)
  (hsource : ¬ IsKeyword "where" source.word ∧ ¬ IsKeyword "group" source.word)
include hselected hfrom hsource

theorem clauses?_none (hps : ∀ p ∈ [selected, from', source], p.IsSpaced) :
    clauses? (textOf [selected, from', source]) =
      some ⟨textOf [selected] ++ from'.gap, textOf [source], none, none⟩ := by
  have hwhere : (placed [selected, from'] [source]).find? (·.is "where") = none :=
    find?_placed_eq_none (List.forall_mem_singleton.mpr hsource.1) _
  have hgroup : findGroupBy? (placed [selected, from'] [source]) = none :=
    findGroupBy?_placed_eq_none (List.forall_mem_singleton.mpr hsource.2) _
  have hslice := slice_textOf_end [selected, from'] [source]
  rw [clauses?_textOf hps hselected hfrom hwhere hgroup]
  simpa using hslice

/-- With WHERE alone the condition runs to the end. -/
theorem clauses?_where (hps : ∀ p ∈ selected :: from' :: source :: where' :: ps, p.IsSpaced)
    (hwhere : IsKeyword "where" where'.word) (hbounds : ∀ p ∈ ps, ¬ IsKeyword "group" p.word) :
    clauses? (textOf (selected :: from' :: source :: where' :: ps)) =
      some ⟨textOf [selected] ++ from'.gap, textOf [source] ++ where'.gap, some (textOf ps),
        none⟩ := by
  have hfind : (placed [selected, from'] (source :: where' :: ps)).find? (·.is "where") =
      some (where'.after [selected, from', source]) :=
    find?_placed (List.forall_mem_singleton.mpr hsource.1) hwhere [selected, from'] ps
  have hgroup : findGroupBy? (placed [selected, from'] (source :: where' :: ps)) = none :=
    findGroupBy?_placed_eq_none (not_group_of_where hsource.2 hwhere hbounds) _
  have hbefore := start_after_le [selected, from', source] ps where'
  have hsource := slice_textOf [selected, from'] [source] ps where'
  have hcondition := slice_textOf_end [selected, from', source, where'] ps
  simp only [List.cons_append, List.nil_append] at hbefore hsource hcondition
  rw [clauses?_textOf hps hselected hfrom hfind hgroup]
  dsimp only [Option.map_some, Option.map_none, Option.getD_some, Option.getD_none]
  rw [Nat.min_eq_left hbefore, hsource, ite_self, stop_after]
  simp only [List.cons_append, List.nil_append, hcondition]

/-- With GROUP BY alone the name ends there. -/
theorem clauses?_group (hps : ∀ p ∈ [selected, from', source, group, by', minutes], p.IsSpaced)
    (hgroup : IsKeyword "group" group.word) (hby : IsKeyword "by" by'.word)
    (hminutes : ¬ IsKeyword "where" minutes.word) :
    clauses? (textOf [selected, from', source, group, by', minutes]) =
      some ⟨textOf [selected] ++ from'.gap, textOf [source] ++ group.gap, none,
        some (textOf [minutes])⟩ := by
  have hfind : (placed [selected, from'] [source, group, by', minutes]).find? (·.is "where") =
      none :=
    find?_placed_eq_none (not_where_of_group hsource.1 hgroup hby hminutes) _
  have hfound : findGroupBy? (placed [selected, from'] [source, group, by', minutes]) =
      some (group.after [selected, from', source], by'.after [selected, from', source, group]) :=
    findGroupBy?_placed (List.forall_mem_singleton.mpr hsource.2) hgroup hby [selected, from']
      [minutes]
  have hbefore := start_after_le [selected, from', source] [by', minutes] group
  have hsource := slice_textOf [selected, from'] [source] [by', minutes] group
  have hgrouping := drop_textOf [selected, from', source, group, by'] [minutes]
  simp only [List.cons_append, List.nil_append] at hbefore hsource hgrouping
  rw [clauses?_textOf hps hselected hfrom hfind hfound]
  dsimp only [Option.map_some, Option.map_none, Option.getD_some, Option.getD_none]
  rw [Nat.min_eq_right hbefore, hsource, stop_after]
  simp only [List.cons_append, List.nil_append, hgrouping]

/-- A condition in front of GROUP BY ends there. -/
theorem clauses?_where_group
    (hps : ∀ p ∈ selected :: from' :: source :: where' :: (ps ++ [group, by', minutes]), p.IsSpaced)
    (hwhere : IsKeyword "where" where'.word) (hbounds : ∀ p ∈ ps, ¬ IsKeyword "group" p.word)
    (hgroup : IsKeyword "group" group.word) (hby : IsKeyword "by" by'.word) :
    clauses? (textOf (selected :: from' :: source :: where' :: (ps ++ [group, by', minutes]))) =
      some ⟨textOf [selected] ++ from'.gap, textOf [source] ++ where'.gap,
        some (textOf ps ++ group.gap), some (textOf [minutes])⟩ := by
  have hfind : (placed [selected, from'] (source :: where' :: (ps ++ [group, by', minutes]))).find?
      (·.is "where") = some (where'.after [selected, from', source]) :=
    find?_placed (List.forall_mem_singleton.mpr hsource.1) hwhere [selected, from'] _
  have hfound : findGroupBy? (placed [selected, from']
      (source :: where' :: (ps ++ [group, by', minutes]))) =
      some (group.after (selected :: from' :: source :: where' :: ps),
        by'.after (selected :: from' :: source :: where' :: (ps ++ [group]))) :=
    findGroupBy?_placed (not_group_of_where hsource.2 hwhere hbounds) hgroup hby [selected, from']
      [minutes]
  have hword : where'.word ≠ [] := hwhere.ne_nil
  have hbefore := start_after_lt hword [selected, from', source] ps group
  have hsource := slice_textOf [selected, from'] [source] (ps ++ [group, by', minutes]) where'
  have hcondition := slice_textOf [selected, from', source, where'] ps [by', minutes] group
  have hgrouping :=
    drop_textOf (selected :: from' :: source :: where' :: (ps ++ [group, by'])) [minutes]
  simp only [List.cons_append, List.nil_append] at hbefore hsource hcondition
  simp only [List.cons_append, List.append_assoc, List.nil_append] at hgrouping
  rw [clauses?_textOf hps hselected hfrom hfind hfound]
  dsimp only [Option.map_some, Option.getD_some]
  rw [Nat.min_eq_left (Nat.le_of_lt hbefore), hsource, if_pos hbefore, stop_after, stop_after]
  simp only [List.cons_append, List.nil_append, List.append_assoc, hcondition, hgrouping]

/-- A condition behind GROUP BY runs to the end. -/
theorem clauses?_group_where
    (hps : ∀ p ∈ selected :: from' :: source :: group :: by' :: minutes :: where' :: ps, p.IsSpaced)
    (hgroup : IsKeyword "group" group.word) (hby : IsKeyword "by" by'.word)
    (hminutes : ¬ IsKeyword "where" minutes.word) (hwhere : IsKeyword "where" where'.word) :
    clauses? (textOf (selected :: from' :: source :: group :: by' :: minutes :: where' :: ps)) =
      some ⟨textOf [selected] ++ from'.gap, textOf [source] ++ group.gap, some (textOf ps),
        some (textOf (minutes :: where' :: ps))⟩ := by
  have hfind : (placed [selected, from']
      (source :: group :: by' :: minutes :: where' :: ps)).find? (·.is "where") =
      some (where'.after [selected, from', source, group, by', minutes]) :=
    find?_placed (not_where_of_group hsource.1 hgroup hby hminutes) hwhere
      [selected, from'] ps
  have hfound : findGroupBy? (placed [selected, from']
      (source :: group :: by' :: minutes :: where' :: ps)) =
      some (group.after [selected, from', source], by'.after [selected, from', source, group]) :=
    findGroupBy?_placed (List.forall_mem_singleton.mpr hsource.2) hgroup hby [selected, from']
      (minutes :: where' :: ps)
  have hword : group.word ≠ [] := hgroup.ne_nil
  have hbefore := start_after_lt hword [selected, from', source] [by', minutes] where'
  have hsource := slice_textOf [selected, from'] [source] (by' :: minutes :: where' :: ps) group
  have hcondition := slice_textOf_end [selected, from', source, group, by', minutes, where'] ps
  have hgrouping := drop_textOf [selected, from', source, group, by'] (minutes :: where' :: ps)
  simp only [List.cons_append, List.nil_append] at hbefore hsource hcondition hgrouping
  rw [clauses?_textOf hps hselected hfrom hfind hfound]
  dsimp only [Option.map_some, Option.getD_some]
  rw [Nat.min_eq_right (Nat.le_of_lt hbefore), hsource, if_neg (Nat.lt_asymm hbefore), stop_after,
    stop_after]
  simp only [List.cons_append, List.nil_append, hcondition, hgrouping]

end Cut
/-! ## Reading the clauses -/

section Read

variable {now start stop : Nanos} {width : Option Nanos} {selector : Selector}
  {f : Option Aggregation} {name : List Char} {selected from' source : Piece} {ps : List Piece}

/-- The clauses are read as the parts of a selection. -/
structure Clauses.AreRead (now : Nanos) (c : Clauses) (selector : Selector)
    (f : Option Aggregation) (name : List Char) (start stop : Nanos) (width : Option Nanos) :
    Prop where
  selector : readSelector? c.selector = some (selector, f)
  source : bareName c.source = name
  range : c.condition.elim (.ok (.zero, now)) (readRange · now) = .ok (start, stop)
  grouping : c.grouping.bind readWidth? = width

theorem WritesWhere.isWord (h : WritesWhere now start stop ps) : ∀ p ∈ ps, IsWord p.word := by
  cases h with
  | intro hwhere hrange =>
    exact List.forall_mem_cons.mpr
      ⟨hwhere.isWord, fun p hp => (hrange.areUngrouped p hp).1⟩

theorem WritesGroup.isWord (h : WritesGroup width ps) : ∀ p ∈ ps, IsWord p.word := by
  cases h with
  | intro hgroup hby hwidth =>
    simp only [List.forall_mem_cons]
    exact ⟨hgroup.isWord, hby.isWord, hwidth.isWord,
      List.forall_mem_nil _⟩

theorem WritesClauses.isWord (h : WritesClauses now start stop width ps) :
    ∀ p ∈ ps, IsWord p.word := by
  cases h with
  | none => exact List.forall_mem_nil _
  | range hrange => exact hrange.isWord
  | group hgroup => exact hgroup.isWord
  | rangeGroup hrange hgroup => exact List.forall_mem_append.mpr ⟨hrange.isWord, hgroup.isWord⟩
  | groupRange hgroup hrange => exact List.forall_mem_append.mpr ⟨hgroup.isWord, hrange.isWord⟩

theorem WritesSelect.isWord {s : Select} (h : WritesSelect now s ps) :
    ∀ p ∈ ps, IsWord p.word := by
  cases h with
  | intro hselected hfrom hsource hclauses =>
    simp only [List.forall_mem_cons]
    exact ⟨hselected.isWord, hfrom.isWord, hsource.isWord, hclauses.isWord⟩

theorem WritesSelect.isSpaced {s : Select} (h : WritesSelect now s ps)
    (hps : ∀ p ∈ ps, p.IsGapped) : ∀ p ∈ ps, p.IsSpaced :=
  fun p hp => (hps p hp).isSpaced (h.isWord p hp)

theorem WritesSelector.readSelector?_textOf (h : WritesSelector selector f selected.word)
    (hselected : selected.IsGapped) (hfrom : from'.IsGapped) :
    readSelector? (textOf [selected] ++ from'.gap) = some (selector, f) := by
  rw [textOf_cons, textOf_nil, List.append_nil]
  exact h.readSelector?_eq hselected.isBlank hfrom.isBlank

theorem WritesName.bareName_textOf (h : WritesName name source.word) (hsource : source.IsGapped)
    {gap : List Char} (hgap : ∀ c ∈ gap, Text.isBlank c = true) :
    bareName (textOf [source] ++ gap) = name := by
  rw [textOf_cons, textOf_nil, List.append_nil]
  exact h.bareName_eq hsource.isBlank hgap

theorem WritesWidth.readWidth?_textOf {minutes : Piece} (h : WritesWidth width minutes.word)
    (hminutes : minutes.IsGapped) (ps : List Piece) :
    readWidth? (textOf (minutes :: ps)) = width := by
  rw [textOf_cons]
  exact h.readWidth?_eq hminutes.isBlank _

theorem WritesRange.readRange_textOf (h : WritesRange now start stop ps)
    (hps : ∀ p ∈ ps, p.IsGapped) : readRange (textOf ps) now = .ok (start, stop) := by
  rw [← List.append_nil (textOf ps)]
  exact h.readRange_eq hps (by simp) ⟨List.forall_mem_nil _, List.forall_mem_nil _⟩

theorem WritesRange.readRange_gap {group : Piece} (h : WritesRange now start stop ps)
    (hps : ∀ p ∈ ps, p.IsGapped) (hgroup : group.IsGapped) :
    readRange (textOf ps ++ group.gap) now = .ok (start, stop) :=
  h.readRange_eq hps (fun c hc => hgroup.isBlank c (List.mem_of_head? hc))
    ⟨avoids_of_isSpacing (.inl rfl) hgroup.2, avoids_of_isSpacing (.inr rfl) hgroup.2⟩

/-- What is written after SELECT is cut into clauses that are read as its parts. -/
theorem WritesClauses.exists_areRead (h : WritesClauses now start stop width ps)
    (hselected : WritesSelector selector f selected.word) (hfrom : IsKeyword "from" from'.word)
    (hsource : WritesName name source.word)
    (hps : ∀ p ∈ selected :: from' :: source :: ps, p.IsGapped) :
    ∃ c, clauses? (textOf (selected :: from' :: source :: ps)) = some c ∧
      c.AreRead now selector f name start stop width := by
  have hspaced := (WritesSelect.intro hselected hfrom hsource h).isSpaced hps
  have hfree : ¬ IsKeyword "where" source.word ∧ ¬ IsKeyword "group" source.word :=
    ⟨hsource.not_isKeyword (by decide), hsource.not_isKeyword (by decide)⟩
  have hgapped := hps
  simp only [List.forall_mem_cons] at hgapped
  obtain ⟨hselected', hfrom', hsource', hps'⟩ := hgapped
  have hselector := hselected.readSelector?_textOf hselected' hfrom'
  have hname : ∀ gap : List Char, (∀ c ∈ gap, Text.isBlank c = true) →
      bareName (textOf [source] ++ gap) = name :=
    fun gap hgap => hsource.bareName_textOf hsource' hgap
  have hnone := hselected.not_isKeyword
  cases h with
  | none =>
    have hname := hname [] (List.forall_mem_nil _)
    rw [List.append_nil] at hname
    exact ⟨_, clauses?_none hnone hfrom hfree hspaced, hselector, hname, rfl, rfl⟩
  | range hrange =>
    obtain ⟨hwhere, hrange⟩ := hrange
    obtain ⟨hwhere', hps'⟩ := List.forall_mem_cons.mp hps'
    exact ⟨_, clauses?_where hnone hfrom hfree hspaced hwhere
        fun p hp => (hrange.areUngrouped p hp).2,
      hselector, hname _ hwhere'.isBlank, hrange.readRange_textOf hps', rfl⟩
  | group hgroup =>
    obtain ⟨hgroup, hby, hwidth⟩ := hgroup
    simp only [List.forall_mem_cons] at hps'
    obtain ⟨hgroup', -, hminutes', -⟩ := hps'
    exact ⟨_, clauses?_group hnone hfrom hfree hspaced hgroup hby
        hwidth.not_isKeyword,
      hselector, hname _ hgroup'.isBlank, rfl, hwidth.readWidth?_textOf hminutes' []⟩
  | rangeGroup hrange hgroup =>
    obtain ⟨hwhere, hrange⟩ := hrange
    obtain ⟨hgroup, hby, hwidth⟩ := hgroup
    simp only [List.cons_append, List.forall_mem_cons, List.forall_mem_append] at hps'
    obtain ⟨hwhere', hps', hgroup', -, hminutes', -⟩ := hps'
    exact ⟨_, clauses?_where_group hnone hfrom hfree hspaced hwhere
        (fun p hp => (hrange.areUngrouped p hp).2) hgroup hby,
      hselector, hname _ hwhere'.isBlank, hrange.readRange_gap hps' hgroup',
      hwidth.readWidth?_textOf hminutes' []⟩
  | groupRange hgroup hrange =>
    obtain ⟨hwhere, hrange⟩ := hrange
    obtain ⟨hgroup, hby, hwidth⟩ := hgroup
    simp only [List.cons_append, List.nil_append, List.forall_mem_cons] at hps'
    obtain ⟨hgroup', -, hminutes', -, hps'⟩ := hps'
    exact ⟨_, clauses?_group_where hnone hfrom hfree hspaced hgroup hby
        hwidth.not_isKeyword hwhere,
      hselector, hname _ hgroup'.isBlank, hrange.readRange_textOf hps',
      hwidth.readWidth?_textOf hminutes' _⟩

end Read
end TimeSeries.Query
