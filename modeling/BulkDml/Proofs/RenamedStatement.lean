import BulkDml.Proofs.HarmlessPlaces
import BulkDml.Proofs.MergedBindings
import BulkDml.Proofs.RoutedStatement
import BulkDml.Proofs.WrittenQuery

/-! # What routing renames

Rerouting a statement renames its table wherever the name stands by itself, be it the target, a column, a
placeholder or a literal.  The lines of the statement are renamed one by one.

* `tablePlaces_append_cons`, `tablePlaces_append` — the places of a name on both sides of a character that is not in
  it, and of a cut;
* `tablePlaces_target` — the target of a statement is a place of its table, and its verb has none;
* `Request.reroute?_compile_lines` — the statement of a request with a route, line by line.
-/

namespace BulkDml

/-! ## Renaming line by line -/

/-- What follows a beginning is followed by the rest of the text. -/
theorem after?_append_cons {lead left : Text} {mark : Char} (hmark : mark ∉ lead) (right : Text) :
    Text.after? lead (left ++ mark :: right) = (Text.after? lead left).map (· ++ mark :: right) := by
  induction lead generalizing left with
  | nil => rfl
  | cons c tail ih =>
    rw [List.mem_cons, not_or] at hmark
    cases left with
    | nil =>
      show (if c = mark then Text.after? tail right else none) = none
      rw [if_neg (Ne.symm hmark.1)]
    | cons d rest =>
      rw [List.cons_append, Text.after?, Text.after?]
      split
      · exact ih hmark.2
      · rfl

/-- A name that does not hold a character is found in front of it as it is without it. -/
theorem occurrence?_append_cons {name left : Text} {mark : Char} (hmark : mark ∉ name)
    (right : Text) :
    occurrence? name (left ++ mark :: right)
      = (occurrence? name left).map (· ++ mark :: right) := by
  unfold occurrence?
  split
  · rfl
  · exact after?_append_cons hmark right

/-- A character that is no name character does not change whether a name stands by itself in front of
it. -/
theorem standsAlone_append_cons (name behind : Text) {mark : Char} (hmark : isNameChar mark = false)
    (previous : Option Char) (right : Text) :
    standsAlone name previous (behind ++ mark :: right) = standsAlone name previous behind := by
  cases behind with
  | nil => simp [standsAlone, hmark]
  | cons c rest => rfl

/-- A character that is no name character is for the places behind it as good as none. -/
theorem placesAfter_some_of_not_nameChar (name : Text) {mark : Char}
    (hmark : isNameChar mark = false) (text : Text) :
    placesAfter name (some mark) text = placesAfter name none text := by
  have hstands : ∀ behind, standsAlone name (some mark) behind = standsAlone name none behind := by
    intro behind
    simp [standsAlone, hmark]
  cases text with
  | nil => rw [placesAfter, placesAfter]
  | cons c rest =>
    cases hfound : occurrence? name (c :: rest) with
    | none => rw [placesAfter_of_no_occurrence hfound, placesAfter_of_no_occurrence hfound]
    | some behind =>
      rw [placesAfter_of_occurrence? hfound, placesAfter_of_occurrence? hfound, hstands]

/-- A name has its places on both sides of a character that is neither in it nor prolongs a name. -/
theorem placesAfter_append_cons {name : Text} {mark : Char} (hmem : mark ∉ name)
    (hmark : isNameChar mark = false) (previous : Option Char) (left right : Text) :
    placesAfter name previous (left ++ mark :: right)
      = placesAfter name previous left ++ some mark :: tablePlaces name right := by
  fun_induction placesAfter name previous left with
  | case1 previous =>
    -- the character itself starts no occurrence
    have hnone : occurrence? name (mark :: right) = none := by
      have hnil : occurrence? name [] = none := by
        cases name <;> rfl
      have hempty : occurrence? name ([] ++ mark :: right) = none := by
        rw [occurrence?_append_cons hmem, hnil]
        rfl
      exact hempty
    rw [List.nil_append, placesAfter_of_no_occurrence hnone,
      placesAfter_some_of_not_nameChar name hmark]
    rfl
  | case2 previous c rest behind hfound ih =>
    have hlong : occurrence? name (c :: (rest ++ mark :: right))
        = some (behind ++ mark :: right) := by
      rw [← List.cons_append, occurrence?_append_cons hmem, hfound]
      rfl
    rw [List.cons_append, placesAfter_of_occurrence? hlong, standsAlone_append_cons name behind hmark,
      ih, List.append_assoc]
  | case3 previous c rest hnone ih =>
    have hlong : occurrence? name (c :: (rest ++ mark :: right)) = none := by
      rw [← List.cons_append, occurrence?_append_cons hmem, hnone]
      rfl
    rw [List.cons_append, placesAfter_of_no_occurrence hlong, ih, List.cons_append]

/-- The places of a name in a text are those on both sides of a character that is in no name. -/
theorem tablePlaces_append_cons {name : Text} {mark : Char} (hmem : mark ∉ name)
    (hmark : isNameChar mark = false) (left right : Text) :
    tablePlaces name (left ++ mark :: right)
      = tablePlaces name left ++ some mark :: tablePlaces name right :=
  placesAfter_append_cons hmem hmark none left right

/-- The places of a name in two texts one after the other are those in both, if no run of name characters and
characters of the name goes on from one to the other. -/
theorem tablePlaces_append {name : Text} {p : Char → Bool} (hp : ∀ c, isNameChar c = true → p c = true)
    (hname : ∀ c ∈ name, p c = true) {left right : Text}
    (h : left.getLast?.any p = false ∨ right.head?.any p = false) :
    tablePlaces name (left ++ right) = tablePlaces name left ++ tablePlaces name right := by
  have hnil : tablePlaces name [] = [] := by rw [tablePlaces, placesAfter]
  -- a character of no run is in no name, so that places can be cut around it
  have hcut : ∀ mark, p mark = false → ∀ before behind : Text,
      tablePlaces name (before ++ mark :: behind)
        = tablePlaces name before ++ some mark :: tablePlaces name behind := by
    intro mark hmark
    refine tablePlaces_append_cons ?_ ?_
    · intro hmem
      rw [hname mark hmem] at hmark
      cases hmark
    · by_contra hchar
      rw [hp mark (by simpa using hchar)] at hmark
      cases hmark
  rcases h with hleft | hright
  · rcases List.eq_nil_or_concat left with rfl | ⟨front, mark, rfl⟩
    · rw [hnil, List.nil_append, List.nil_append]
    · have hmark : p mark = false := by simpa using hleft
      have hfront := hcut mark hmark front []
      rw [List.concat_eq_append, List.append_assoc, List.singleton_append, hcut mark hmark, hfront, hnil,
        List.append_assoc, List.singleton_append]
  · cases right with
    | nil => rw [hnil, List.append_nil, List.append_nil]
    | cons mark behind =>
      have hmark : p mark = false := by simpa using hright
      have hbehind := hcut mark hmark [] behind
      rw [hcut mark hmark, ← List.nil_append (mark :: behind), hbehind, hnil, List.nil_append]

/-- Renaming goes on anew behind a character that is in no name. -/
theorem renameTable_append_cons {old : Text} {mark : Char} (hmem : mark ∉ old)
    (hmark : isNameChar mark = false) (new left right : Text) :
    renameTable old new (left ++ mark :: right)
      = renameTable old new left ++ mark :: renameTable old new right := by
  simp only [renameTable_eq_fillPlaces]
  rw [tablePlaces_append_cons hmem hmark, fillPlaces_append, fillPlaces_cons]
  rfl

/-- Lines are renamed one by one. -/
theorem renameTable_joinWith {old : Text} (hmem : '\n' ∉ old) (new : Text) (lines : List Text) :
    renameTable old new (Text.joinWith ['\n'] lines)
      = Text.joinWith ['\n'] (lines.map (renameTable old new)) := by
  have hnil : renameTable old new [] = [] := renameAfter_nil old new none
  induction lines with
  | nil => exact hnil
  | cons line rest ih =>
    cases rest with
    | nil => rfl
    | cons second more =>
      rw [Text.joinWith_cons_cons, List.append_assoc, List.singleton_append,
        renameTable_append_cons hmem rfl, ih]
      simp only [List.map_cons, Text.joinWith_cons_cons, List.append_assoc, List.singleton_append]

/-! ## The target of a statement -/

/-- A name by itself is one place. -/
theorem placesAfter_self {name : Text} (hne : name ≠ []) {previous : Option Char}
    (hprevious : previous.any isNameChar = false) : placesAfter name previous name = [none] := by
  obtain ⟨c, rest, rfl⟩ := List.exists_cons_of_ne_nil hne
  have hfound : occurrence? (c :: rest) (c :: rest) = some [] := by
    have hafter := Text.after?_append (c :: rest) []
    rw [List.append_nil] at hafter
    exact hafter
  have hstands : standsAlone (c :: rest) previous [] = true := by
    simp [standsAlone, hprevious]
  rw [placesAfter_of_occurrence? hfound, if_pos hstands, placesAfter]
  rfl

/-- A name that starts with no character of the text in front of it has its one place behind this text. -/
theorem placesAfter_append_self {name : Text} (hne : name ≠ []) {before : Text}
    (hbefore : ∀ c ∈ before, name.head? ≠ some c) {previous : Option Char}
    (hprevious : (before.getLast?.or previous).any isNameChar = false) :
    placesAfter name previous (before ++ name) = before.map some ++ [none] := by
  induction before generalizing previous with
  | nil => exact placesAfter_self hne hprevious
  | cons c tail ih =>
    rw [List.forall_mem_cons] at hbefore
    have hnone : occurrence? name (c :: (tail ++ name)) = none := by
      obtain ⟨d, rest, rfl⟩ := List.exists_cons_of_ne_nil hne
      have hd : d ≠ c := by simpa using hbefore.1
      show (if d = c then Text.after? rest (tail ++ d :: rest) else none) = none
      rw [if_neg hd]
    have hlast : (tail.getLast?.or (some c)).any isNameChar = false := by
      rw [List.getLast?_cons] at hprevious
      cases htail : tail.getLast? with
      | none =>
        rw [htail] at hprevious
        exact hprevious
      | some last =>
        rw [htail] at hprevious
        exact hprevious
    rw [List.cons_append, placesAfter_of_no_occurrence hnone, ih hbefore.2 hlast]
    rfl

/-- Inside of a word no name stands by itself. -/
theorem none_notMem_placesAfter_word (name : Text) {previous : Option Char} {word : Text}
    (hprevious : previous.any isNameChar = true) (hword : ∀ c ∈ word, isNameChar c = true) :
    none ∉ placesAfter name previous word := by
  fun_induction placesAfter name previous word with
  | case1 => exact List.not_mem_nil
  | case2 previous c rest behind hfound ih =>
    unfold occurrence? at hfound
    split at hfound
    · cases hfound
    · next hempty =>
      -- the name is part of the word, so that its first character is glued to the previous one
      have htext := Text.eq_append_of_after? hfound
      obtain ⟨d, tail, rfl⟩ := List.exists_cons_of_ne_nil (by simpa using hempty)
      rw [htext] at hword
      have hhead : isNameChar d = true := hword d (by simp)
      have hglued : standsAlone (d :: tail) previous behind = false := by
        simp [standsAlone, hprevious, hhead]
      have hlast : ((d :: tail).getLast?).any isNameChar = true := by
        rw [List.getLast?_eq_some_getLast (List.cons_ne_nil d tail)]
        exact hword _ (List.mem_append_left _ (List.getLast_mem _))
      have hbehind := ih hlast fun c hc => hword c (List.mem_append_right _ hc)
      rw [hglued, if_neg (by simp), List.mem_append]
      rintro (hmem | hmem)
      · simp at hmem
      · exact hbehind hmem
  | case3 previous c rest hnone ih =>
    rw [List.forall_mem_cons] at hword
    rw [List.mem_cons]
    rintro (hmem | hmem)
    · cases hmem
    · exact ih hword.1 hword.2 hmem

/-- Without a place there are only characters. -/
theorem tablePlaces_of_notMem {name text : Text} (h : none ∉ tablePlaces name text) :
    tablePlaces name text = text.map some := by
  have hparts : ∀ parts : List (Option Char), none ∉ parts →
      parts = (fillPlaces name parts).map some := by
    intro parts hnone
    induction parts with
    | nil => rfl
    | cons part rest ih =>
      rw [List.mem_cons, not_or] at hnone
      cases part with
      | none => exact absurd rfl hnone.1
      | some c =>
        rw [fillPlaces_cons, Option.elim_some, List.singleton_append, List.map_cons, ← ih hnone.2]
  have hplaces := hparts _ h
  rwa [fillPlaces_tablePlaces] at hplaces

/-- A word holds no place of another name. -/
theorem tablePlaces_word {name word : Text} (hname : name ≠ word)
    (hword : ∀ c ∈ word, isNameChar c = true) : tablePlaces name word = word.map some := by
  refine tablePlaces_of_notMem ?_
  unfold tablePlaces
  cases word with
  | nil =>
    rw [placesAfter]
    exact List.not_mem_nil
  | cons c rest =>
    rw [List.forall_mem_cons] at hword
    cases hfound : occurrence? name (c :: rest) with
    | none =>
      rw [placesAfter_of_no_occurrence hfound, List.mem_cons]
      rintro (hmem | hmem)
      · cases hmem
      · exact none_notMem_placesAfter_word name (by simpa using hword.1) hword.2 hmem
    | some behind =>
      have hfound' := hfound
      unfold occurrence? at hfound'
      split at hfound'
      · cases hfound'
      · next hempty =>
        -- the name starts the word and something is behind it, which is glued to its last character
        have htext := Text.eq_append_of_after? hfound'
        have hne : name ≠ [] := by simpa using hempty
        have hall : ∀ d ∈ name ++ behind, isNameChar d = true := by
          rw [← htext]
          exact List.forall_mem_cons.mpr hword
        have hlast : name.getLast?.any isNameChar = true := by
          rw [List.getLast?_eq_some_getLast hne]
          exact hall _ (List.mem_append_left _ (List.getLast_mem _))
        obtain ⟨d, more, rfl⟩ : ∃ d more, behind = d :: more := by
          cases behind with
          | nil => exact absurd (by rw [htext, List.append_nil]) hname
          | cons d more => exact ⟨d, more, rfl⟩
        have hglued : standsAlone name none (d :: more) = false := by
          have hd : isNameChar d = true := hall d (by simp)
          simp [standsAlone, hlast, hd]
        have hbehind := none_notMem_placesAfter_word name hlast
          fun d hd => hall d (List.mem_append_right _ hd)
        rw [placesAfter_of_occurrence? hfound, hglued, if_neg (by simp), List.mem_append]
        rintro (hmem | hmem)
        · simp at hmem
        · exact hbehind hmem

/-- What stands in front of the table that a statement changes. -/
def Operation.verb : Operation → Text
  | update => "UPDATE ".toList
  | delete => "DELETE FROM ".toList

/-- The words of a verb. -/
def Operation.words : Operation → List Text
  | update => ["UPDATE".toList]
  | delete => ["DELETE".toList, "FROM".toList]

/-- **A table has its one place behind the verb**, if its name starts with no character of the verb, or if it
is one word and no word of the verb. -/
theorem Operation.tablePlaces_target (operation : Operation) {name : Text} (hne : name ≠ [])
    (h : (∀ c ∈ operation.verb, name.head? ≠ some c) ∨ ' ' ∉ name ∧ name ∉ operation.words) :
    tablePlaces name (operation.verb ++ name) = operation.verb.map some ++ [none] := by
  have hself : tablePlaces name name = [none] := placesAfter_self hne rfl
  rcases h with hhead | ⟨hblank, hwords⟩
  · exact placesAfter_append_self hne hhead (by cases operation <;> rfl)
  · -- the places are those of the words and, behind the last blank, of the name
    have hcut := tablePlaces_append_cons hblank rfl
    cases operation with
    | update =>
      have hupdate : tablePlaces name "UPDATE".toList = "UPDATE".toList.map some :=
        tablePlaces_word (by simpa [words] using hwords) (List.all_eq_true.mp (by decide))
      have htarget := hcut "UPDATE".toList name
      rw [hupdate, hself] at htarget
      exact htarget
    | delete =>
      simp only [words, List.mem_cons, List.not_mem_nil, or_false, not_or] at hwords
      have hdelete : tablePlaces name "DELETE".toList = "DELETE".toList.map some :=
        tablePlaces_word hwords.1 (List.all_eq_true.mp (by decide))
      have hfrom : tablePlaces name "FROM".toList = "FROM".toList.map some :=
        tablePlaces_word hwords.2 (List.all_eq_true.mp (by decide))
      have htable := hcut "FROM".toList name
      have htarget := hcut "DELETE".toList ("FROM".toList ++ ' ' :: name)
      rw [htable, hdelete, hfrom, hself] at htarget
      exact htarget

/-! ## Requests with a route -/

namespace SourceQuery

/-- The table of a query is named. -/
theorem table_ne_nil {dialect : Dialect} {text : Text} {query : SourceQuery}
    (h : parse dialect text = .ok query) : query.table ≠ [] := by
  obtain ⟨layout, hreads, -, -, rfl⟩ := exists_reads_of_parse h
  exact hreads.1.table_ne_nil

end SourceQuery

namespace Statement

/-- The lines of a statement are renamed one by one. -/
theorem renameTable_assemble {old : Text} (hmem : '\n' ∉ old) (new : Text) (preamble : Option Text)
    (lines : List Text) :
    renameTable old new (assemble preamble lines)
      = assemble (preamble.map (renameTable old new)) (lines.map (renameTable old new)) := by
  rw [assemble, renameTable_joinWith hmem, List.map_append, assemble]
  cases preamble <;> rfl

end Statement

/-- A text with the table of a route renamed. -/
def Route.rename (route : Route) (text : Text) : Text :=
  renameTable route.logical route.physical text

/-- Whether the names of a route come back from the one line that they are written on. -/
structure Route.FitsLine (route : Route) : Prop where
  /-- A table to use is named. -/
  physical_ne_nil : route.physical ≠ []
  /-- No colon is in the names. -/
  colon_notMem : ':' ∉ route.logical ∧ ':' ∉ route.physical
  /-- No line feed is in the names. -/
  newline_notMem : '\n' ∉ route.logical ∧ '\n' ∉ route.physical
  /-- No carriage return is in the names. -/
  return_notMem : '\r' ∉ route.logical ∧ '\r' ∉ route.physical

/-- The pragma of such a route is carried out. -/
theorem Route.FitsLine.isCarriedOut {route : Route} (h : route.FitsLine)
    (hlogical : route.logical ≠ []) (tag sql : Text) : (route.pragma tag).IsCarriedOut sql := by
  have hends : Text.endsInBreak route.physical = false := by
    cases hlast : route.physical.getLast? with
    | none => rw [Text.endsInBreak, hlast, Option.any_none]
    | some c =>
      have hmem := List.mem_of_getLast? hlast
      have hreturn : c ≠ '\r' := by
        rintro rfl
        exact h.return_notMem.2 hmem
      have hnewline : c ≠ '\n' := by
        rintro rfl
        exact h.newline_notMem.2 hmem
      simp [Text.endsInBreak, hlast, isBreakChar, hreturn, hnewline]
  refine ⟨hlogical, ?_, h.colon_notMem.1, h.colon_notMem.2, h.newline_notMem.1, h.newline_notMem.2, ?_⟩
  · rw [Route.pragma, Pragma.dropLineBreak_of_endsInBreak_eq_false hends]
    exact h.physical_ne_nil
  · intro hbreak
    rw [Route.pragma, hends] at hbreak
    cases hbreak

namespace Request

/-- The SET clause of a request, if it is an update. -/
def setClause? (dialect : Dialect) (request : Request) : Except CompileError (Option SetClause) :=
  match request.operation with
  | .update => (request.set.compile dialect request.ignored).map some
  | .delete => .ok none

/-- The lines of the statement of a request, behind the declarations: the table behind the verb, the SET
clause of an update, and the condition. -/
def lines (request : Request) (dialect : Dialect) (query : SourceQuery) (clause? : Option SetClause) :
    List Text :=
  (request.operation.verb ++ query.table)
    :: (clause?.toList.map SetClause.text ++ [query.unaliasedWhere dialect])

/-- The statement of a request without a route consists of its lines. -/
theorem exists_setClause?_of_compile {request : Request} {tag : Text} {dialect : Dialect}
    {query : SourceQuery} (hdialect : Dialect.resolve request.kind = .ok dialect)
    (hquery : SourceQuery.parse dialect request.query = .ok query) {plain : Statement}
    (h : request.unrouted.compile tag = .ok plain) :
    ∃ clause?, request.setClause? dialect = .ok clause?
      ∧ plain = ⟨Statement.assemble query.preamble (request.lines dialect query clause?),
        (clause?.map (·.parameters)).getD []⟩ := by
  obtain ⟨kind, operation, source, set, ignored, bindings, shard⟩ := request
  simp only [compile, unrouted, hdialect, bind, Except.bind] at h
  cases operation with
  | delete =>
    simp only [compileDelete_of_parse hquery] at h
    cases h
    exact ⟨none, rfl, rfl⟩
  | update =>
    simp only [compileUpdate_of_parse hquery] at h
    cases hclause : set.compile dialect ignored with
    | error cause =>
      rw [hclause] at h
      cases h
    | ok clause =>
      rw [hclause] at h
      cases h
      refine ⟨some clause, ?_, rfl⟩
      rw [setClause?, hclause]
      rfl

/-- **What rerouting does to the statement of a request**, whose route is from the table of its query to
another name and fits on its line.  The statement without the route is renamed line by line.  Its target
is the new name, if the old one has its one place behind the verb.  Its SET clause stays the same exactly if
the names are the same or the clause does not mention the table.  Its placeholders, and the values that are
bound to them, stay the same if the table is named in harmless places only; and so do the literals of texts,
if none of these places is inside of a literal and no apostrophe is in the names. -/
theorem reroute?_compile_lines {tag : Text} (htag : '\n' ∉ tag) {request : Request} {route : Route}
    (hroute : request.shard = some route) (hfits : route.FitsLine) {dialect : Dialect}
    (hdialect : Dialect.resolve request.kind = .ok dialect) {query : SourceQuery}
    (hquery : SourceQuery.parse dialect request.query = .ok query)
    (htable : route.logical = query.table) {statement : Statement}
    (hcompile : request.compile tag = .ok statement) :
    ∃ (plain : Statement) (clause? : Option SetClause) (routed : Text),
      request.unrouted.compile tag = .ok plain
        ∧ request.setClause? dialect = .ok clause?
        ∧ reroute? tag statement.sql = some routed
        ∧ statement.parameters = plain.parameters
        ∧ plain.sql = Statement.assemble query.preamble (request.lines dialect query clause?)
        ∧ routed = Statement.assemble (query.preamble.map route.rename)
            ((request.lines dialect query clause?).map route.rename)
        ∧ (tablePlaces query.table (request.operation.verb ++ query.table)
              = request.operation.verb.map some ++ [none] →
            route.rename (request.operation.verb ++ query.table)
              = request.operation.verb ++ route.physical)
        ∧ ((∀ c ∈ request.operation.verb, query.table.head? ≠ some c)
              ∨ ' ' ∉ query.table ∧ query.table ∉ request.operation.words →
            tablePlaces query.table (request.operation.verb ++ query.table)
              = request.operation.verb.map some ++ [none])
        ∧ (∀ clause ∈ clause?, route.rename clause.text = clause.text
            ↔ route.logical = route.physical ∨ mentionsTable query.table clause.text = false)
        ∧ (IsHarmlessIn route.logical route.physical plain.sql →
            (segments routed).filter Segment.isPlaceholder
                = (segments plain.sql).filter Segment.isPlaceholder
              ∧ (∀ bindings,
                (toPositional routed bindings).values = (toPositional plain.sql bindings).values)
              ∧ ('\'' ∉ route.logical → '\'' ∉ route.physical →
                IsOutsideLiterals route.logical plain.sql →
                  (segments routed).filter Segment.isTextLiteral
                    = (segments plain.sql).filter Segment.isTextLiteral)) := by
  have hlogical : route.logical ≠ [] := by
    rw [htable]
    exact SourceQuery.table_ne_nil hquery
  rw [compile_of_shard hroute] at hcompile
  cases hplain : request.unrouted.compile tag with
  | error cause =>
    rw [hplain] at hcompile
    cases hcompile
  | ok plain =>
    rw [hplain] at hcompile
    cases hcompile
    obtain ⟨clause?, hclause, hlines⟩ := exists_setClause?_of_compile hdialect hquery hplain
    have hcarried := hfits.isCarriedOut hlogical tag plain.sql
    have hrerouted := ((Pragma.reroute?_attach_iff htag plain.sql).mpr hcarried).2
    refine ⟨plain, clause?, route.rename plain.sql, rfl, hclause, hrerouted, rfl, by rw [hlines], ?_,
      ?_, ?_, ?_, ?_⟩
    · rw [hlines]
      exact Statement.renameTable_assemble hfits.newline_notMem.1 _ _ _
    · intro htarget
      rw [Route.rename, renameTable_eq_fillPlaces, htable, htarget, fillPlaces_append,
        fillPlaces_map_some]
      simp
    · intro hname
      exact request.operation.tablePlaces_target (htable ▸ hlogical) hname
    · intro clause _
      rw [← htable]
      exact renameTable_eq_self_iff
    · intro hharmless
      have hplaceholders := hharmless.filter_isPlaceholder
      refine ⟨hplaceholders, fun bindings => values_toPositional_congr hplaceholders bindings, ?_⟩
      intro hold hnew houtside
      exact hharmless.filter_isTextLiteral hold hnew houtside

/-- An update of the orders of a year, whose condition names the table as well. -/
def yearlyUpdate : Request where
  kind := "sqlserver".toList
  operation := .update
  query := ("SELECT 1 FROM [Orders] AS [o] "
    ++ "WHERE [o].[Id] = @p0 AND [Orders].[Kind] <> 'x'").toList
  set := [⟨"Owner".toList, .captured "owner".toList (.text "me".toList)⟩]
  ignored := .empty
  bindings := []
  shard := some ⟨"[Orders]".toList, "[Orders_2024]".toList⟩

/-- The table of `yearlyUpdate` is named as the target and in the condition, and in both places harmlessly. -/
theorem reroute?_compile_yearlyUpdate :
    ∃ plain routed, yearlyUpdate.unrouted.compile "SHARD".toList = .ok plain
      ∧ reroute? "SHARD".toList
          ("-- SHARD:[Orders]:[Orders_2024]\r\nUPDATE [Orders]\nSET [Owner] = @Owner_P0\n"
            ++ "WHERE [Id] = @p0 AND [Orders].[Kind] <> 'x'").toList
        = some routed
      ∧ renameTable "[Orders]".toList "[Orders_2024]".toList "UPDATE [Orders]".toList
        = "UPDATE [Orders_2024]".toList
      ∧ (∀ bindings,
          (toPositional routed bindings).values = (toPositional plain.sql bindings).values)
      ∧ (segments routed).filter Segment.isTextLiteral
        = (segments plain.sql).filter Segment.isTextLiteral := by
  have hcompile : yearlyUpdate.compile "SHARD".toList
      = .ok ⟨("-- SHARD:[Orders]:[Orders_2024]\r\nUPDATE [Orders]\nSET [Owner] = @Owner_P0\n"
            ++ "WHERE [Id] = @p0 AND [Orders].[Kind] <> 'x'").toList,
          [⟨"@Owner_P0".toList, .text "me".toList⟩]⟩ := by
    decide +kernel
  have hparse : SourceQuery.parse .sqlServer yearlyUpdate.query
      = .ok ⟨none, "[Orders]".toList, "[o]".toList,
          "WHERE [o].[Id] = @p0 AND [Orders].[Kind] <> 'x'".toList⟩ := by
    decide +kernel
  have hfits : Route.FitsLine ⟨"[Orders]".toList, "[Orders_2024]".toList⟩ :=
    ⟨by decide, by decide, by decide, by decide⟩
  obtain ⟨plain, clause?, routed, hplain, -, hrouted, -, -, -, htarget, hverb, -, hkept⟩ :=
    reroute?_compile_lines (by decide) rfl hfits rfl hparse rfl hcompile
  have hunrouted : yearlyUpdate.unrouted.compile "SHARD".toList
      = .ok ⟨("UPDATE [Orders]\nSET [Owner] = @Owner_P0\n"
          ++ "WHERE [Id] = @p0 AND [Orders].[Kind] <> 'x'").toList,
        [⟨"@Owner_P0".toList, .text "me".toList⟩]⟩ := by
    decide +kernel
  have hplaces : tablePlaces "[Orders]".toList plain.sql
      = "UPDATE ".toList.map some ++ none
        :: ("\nSET [Owner] = @Owner_P0\nWHERE [Id] = @p0 AND ".toList.map some ++ none
          :: ".[Kind] <> 'x'".toList.map some) := by
    rw [hunrouted] at hplain
    cases hplain
    decide +kernel
  -- the places are behind `UPDATE ` and behind `AND `, both of which end plainly
  have hcases : ∀ front back, tablePlaces "[Orders]".toList plain.sql = front ++ none :: back →
      (fillPlaces "[Orders]".toList front).EndsPlain
        ∧ Text.startsClosing (fillPlaces "[Orders_2024]".toList back) = false := by
    intro front back hparts
    rw [hplaces] at hparts
    rcases place_cases hparts with ⟨rfl, rfl⟩ | ⟨more, rfl, hmore⟩
    · exact ⟨.of_getLast? (c := ' ') (by decide +kernel) rfl, by decide⟩
    · rcases place_cases hmore with ⟨rfl, rfl⟩ | ⟨_, rfl, hlast⟩
      · exact ⟨.of_getLast? (c := ' ') (by decide +kernel) rfl, by decide⟩
      · have hmem : none ∈ ".[Kind] <> 'x'".toList.map some := by
          rw [hlast]
          simp
        exact absurd hmem (by decide)
  have hharmless : IsHarmlessIn "[Orders]".toList "[Orders_2024]".toList plain.sql := by
    intro front back hparts
    obtain ⟨hbefore, hbehind⟩ := hcases front back hparts
    exact .apart hbefore hbehind (.quote .sqlServer "Orders".toList)
      (.quote .sqlServer "Orders_2024".toList)
  have houtside : IsOutsideLiterals "[Orders]".toList plain.sql := by
    intro front back hparts
    exact (hcases front back hparts).1.not_endsInQuotes _ _
  have hhead : ∀ c ∈ "UPDATE ".toList, "[Orders]".toList.head? ≠ some c := by
    intro c hc hbracket
    have hsame : '[' = c := Option.some_inj.mp hbracket
    rw [← hsame] at hc
    exact absurd hc (by decide)
  obtain ⟨-, hvalues, hliterals⟩ := hkept hharmless
  dsimp only at hrouted
  exact ⟨plain, routed, hplain, hrouted, htarget (hverb (Or.inl hhead)), hvalues,
    hliterals (by decide) (by decide) houtside⟩

/-- An update of a table that has the name of a column, of a placeholder and of a kind. -/
def statusUpdate : Request where
  kind := "sqlserver".toList
  operation := .update
  query := ("SELECT [s].[Id] FROM Status AS [s] "
    ++ "WHERE [s].[Kind] = 'Status' AND [s].[Id] = @Status").toList
  set := [⟨"Status".toList, .constant (.text "shipped".toList)⟩]
  ignored := .empty
  bindings := [⟨"@Status".toList, .int 5⟩]
  shard := some ⟨"Status".toList, "Status_2024".toList⟩

/-- Rerouting renames more than the table: the column that is set, a literal and a placeholder have new names
as well, so that a value that was bound without the route is not bound any more. -/
theorem column_is_renamed :
    statusUpdate.compile "SHARD".toList
      = .ok ⟨("-- SHARD:Status:Status_2024\r\nUPDATE Status\nSET [Status] = @Status_P0\n"
          ++ "WHERE [Kind] = 'Status' AND [Id] = @Status").toList,
        [⟨"@Status_P0".toList, .text "shipped".toList⟩]⟩
    ∧ reroute? "SHARD".toList
        ("-- SHARD:Status:Status_2024\r\nUPDATE Status\nSET [Status] = @Status_P0\n"
          ++ "WHERE [Kind] = 'Status' AND [Id] = @Status").toList
      = some ("UPDATE Status_2024\nSET [Status_2024] = @Status_P0\n"
          ++ "WHERE [Kind] = 'Status_2024' AND [Id] = @Status_2024").toList
    ∧ (toPositional ("UPDATE Status\nSET [Status] = @Status_P0\n"
          ++ "WHERE [Kind] = 'Status' AND [Id] = @Status").toList
        (mergeBindings [⟨"@Status_P0".toList, .text "shipped".toList⟩] statusUpdate.bindings)).values
      = [.text "shipped".toList, .int 5]
    ∧ (toPositional ("UPDATE Status_2024\nSET [Status_2024] = @Status_P0\n"
          ++ "WHERE [Kind] = 'Status_2024' AND [Id] = @Status_2024").toList
        (mergeBindings [⟨"@Status_P0".toList, .text "shipped".toList⟩] statusUpdate.bindings)).values
      = [.text "shipped".toList] := by
  refine ⟨?_, ?_, ?_, ?_⟩
  all_goals decide +kernel

end Request

end BulkDml
