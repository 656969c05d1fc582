import BulkDml.Proofs.PragmaLine
import BulkDml.Proofs.TablePlaces
import BulkDml.Request.Json

/-! # Routed statements

A request with a route compiles to the statement without it, behind a pragma.  The statement is meant to
be rerouted as the route says.  It is, for exactly the routes whose names fill one line and come back from
it; every other route is lost on the way, and so is the renaming.

* `Pragma.IsCarriedOut` — pragmas that do to a command what they say;
* `Pragma.reroute?_attach_iff` — exactly these are consumed as one line and rename the table;
* `Request.unrouted`, `Request.compile_of_shard` — the statement of a request with a route;
* `Request.reroute?_compile_iff` — the requests whose statement is rerouted as they say.
-/

namespace BulkDml

namespace Pragma

/-- A carriage return behind a line is part of its line break. -/
theorem dropLineBreak_append_return (text : Text) :
    dropLineBreak (text ++ ['\r']) = dropLineBreak text :=
  List.rdropWhile_concat_pos isBreakChar text '\r' rfl

/-- Whether carrying out a pragma in front of a command renames the table that it names to the one that it
names. -/
structure IsCarriedOut (pragma : Pragma) (sql : Text) : Prop where
  /-- The logical table is named. -/
  logical_ne_nil : pragma.logical ≠ []
  /-- The physical table is named by more than line-break characters. -/
  physical_ne_nil : dropLineBreak pragma.physical ≠ []
  /-- No colon cuts the name of the logical table short. -/
  colon_notMem_logical : ':' ∉ pragma.logical
  /-- No colon starts a third name. -/
  colon_notMem_physical : ':' ∉ pragma.physical
  /-- The name of the logical table is on one line. -/
  newline_notMem_logical : '\n' ∉ pragma.logical
  /-- The name of the physical table is on one line. -/
  newline_notMem_physical : '\n' ∉ pragma.physical
  /-- A line break that ends the name of the physical table is lost, which shows if it is needed. -/
  mentions_eq_false : Text.endsInBreak pragma.physical = true → mentionsTable pragma.logical sql = false

/-- Reading a line as a pragma finds its tables between the colons: the line has these two colons behind
the tag and no others. -/
theorem names_of_parse?_line {pragma read : Pragma}
    (h : parse? pragma.tag (pragma.line ++ ['\r']) = some read) :
    ':' ∉ pragma.logical ∧ ':' ∉ pragma.physical ∧ read.logical = pragma.logical
      ∧ read.physical = dropLineBreak pragma.physical := by
  obtain ⟨htag, hreadable, breaks, hbreaks, hline⟩ := parse?_eq_some_iff.mp h
  rw [line, line, htag] at hline
  simp only [List.append_assoc, List.cons_append] at hline
  have hnames : pragma.logical ++ ':' :: (pragma.physical ++ ['\r'])
      = read.logical ++ ':' :: (read.physical ++ breaks) :=
    List.append_cancel_left hline
  -- what was read has one colon, so that there is no other in what was written
  have hcolon : ':' ∉ breaks := by
    intro hmem
    exact absurd (hbreaks ':' hmem) (by decide)
  have hcount := congrArg (List.count ':') hnames
  simp only [List.count_append, List.count_cons_self, List.count_eq_zero.mpr hcolon,
    List.count_eq_zero.mpr hreadable.colon_notMem_logical,
    List.count_eq_zero.mpr hreadable.colon_notMem_physical] at hcount
  have hlogical : ':' ∉ pragma.logical := List.count_eq_zero.mp (by omega)
  have hphysical : ':' ∉ pragma.physical := List.count_eq_zero.mp (by omega)
  have hsplit : Text.splitFirst ':' (pragma.logical ++ ':' :: (pragma.physical ++ ['\r']))
      = some (read.logical, read.physical ++ breaks) := by
    rw [hnames]
    exact Text.splitFirst_eq_some_iff.mpr ⟨hreadable.colon_notMem_logical, rfl⟩
  rw [Text.splitFirst_eq_some_iff.mpr ⟨hlogical, rfl⟩, Option.some_inj, Prod.mk.injEq] at hsplit
  have hread : dropLineBreak (read.physical ++ breaks) = read.physical :=
    dropLineBreak_append hbreaks hreadable.endsInBreak_physical
  rw [← hsplit.2, dropLineBreak_append_return] at hread
  exact ⟨hlogical, hphysical, hsplit.1.symm, hread.symm⟩

/-- A name that ends in a line break is longer than what is read of it. -/
theorem length_dropLineBreak_ne {text : Text} (h : Text.endsInBreak text = true) :
    text.length ≠ (dropLineBreak text).length := by
  intro hlength
  obtain ⟨breaks, -, htext⟩ := exists_dropLineBreak_append text
  have hnil : breaks = [] := by
    have hsum := congrArg List.length htext
    rw [List.length_append] at hsum
    exact List.eq_nil_of_length_eq_zero (by omega)
  -- nothing was dropped, although the name ends in a line break
  have hends := endsInBreak_dropLineBreak text
  rw [hnil, List.append_nil] at htext
  rw [← htext, h] at hends
  cases hends

/-- A text that does not end in a line break is kept. -/
theorem dropLineBreak_of_endsInBreak_eq_false {text : Text} (h : Text.endsInBreak text = false) :
    dropLineBreak text = text := by
  have happend : dropLineBreak (text ++ []) = text := dropLineBreak_append (by simp) h
  rwa [List.append_nil] at happend

/-- **A pragma in front of a command is consumed as one line and does what it says exactly if it is carried
out**: the command behind it is renamed from its logical to its physical table. -/
theorem reroute?_attach_iff {pragma : Pragma} (htag : '\n' ∉ pragma.tag) (sql : Text) :
    splitFirstLine (pragma.attach sql) = (pragma.line ++ ['\r'], sql)
        ∧ reroute? pragma.tag (pragma.attach sql)
          = some (renameTable pragma.logical pragma.physical sql)
      ↔ pragma.IsCarriedOut sql := by
  constructor
  · rintro ⟨hsplit, hreroute⟩
    rw [reroute?_eq_some_iff, hsplit] at hreroute
    obtain ⟨read, hparse, hrenamed⟩ := hreroute
    obtain ⟨hlogical, hphysical, hsame, hread⟩ := names_of_parse?_line hparse
    obtain ⟨-, hreadable, -⟩ := parse?_eq_some_iff.mp hparse
    have hline : '\n' ∉ pragma.line := by
      have hfirst := newline_notMem_splitFirstLine (pragma.attach sql)
      rw [hsplit] at hfirst
      intro hmem
      exact hfirst (List.mem_append_left _ hmem)
    simp only [line, List.mem_append, List.mem_cons, not_or] at hline
    refine ⟨?_, ?_, hlogical, hphysical, hline.1.2, hline.2.2, ?_⟩
    · rw [← hsame]
      exact hreadable.logical_ne_nil
    · rw [← hread]
      exact hreadable.physical_ne_nil
    · intro hends
      rw [hsame, hread] at hrenamed
      exact (renameTable_eq_renameTable_iff (length_dropLineBreak_ne hends)).mp hrenamed
  · intro h
    have hline := newline_notMem_line htag h.newline_notMem_logical h.newline_notMem_physical
    have hsplit := splitFirstLine_attach hline sql
    refine ⟨hsplit, ?_⟩
    -- what is read is the pragma without the line break that its physical table ends in
    obtain ⟨breaks, hbreaks, hphysical⟩ := exists_dropLineBreak_append pragma.physical
    have hreadable : IsReadable ⟨pragma.tag, pragma.logical, dropLineBreak pragma.physical⟩ := by
      refine ⟨h.logical_ne_nil, h.physical_ne_nil, h.colon_notMem_logical, ?_,
        endsInBreak_dropLineBreak _⟩
      intro hmem
      apply h.colon_notMem_physical
      rw [hphysical]
      exact List.mem_append_left _ hmem
    rw [reroute?_eq_some_iff, hsplit]
    refine ⟨⟨pragma.tag, pragma.logical, dropLineBreak pragma.physical⟩, ?_, ?_⟩
    · rw [parse?_eq_some_iff]
      refine ⟨rfl, hreadable, breaks ++ ['\r'], ?_, ?_⟩
      · intro c hc
        rcases List.mem_append.mp hc with hbreak | hreturn
        · exact hbreaks c hbreak
        · rw [List.mem_singleton.mp hreturn]
          rfl
      · show pragma.line ++ ['\r'] = _
        rw [line, line]
        nth_rewrite 1 [hphysical]
        simp only [List.append_assoc, List.cons_append]
    · cases hends : Text.endsInBreak pragma.physical with
      | false => rw [dropLineBreak_of_endsInBreak_eq_false hends]
      | true => exact renameTable_eq_of_not_mentions (h.mentions_eq_false hends) _ _

end Pragma

/-! ## Requests with a route -/

namespace Request

/-- The request without its route. -/
def unrouted (request : Request) : Request := { request with shard := none }

/-- The statement of a request with a route is the one without, behind the pragma of the route. -/
theorem compile_of_shard {request : Request} {route : Route} (h : request.shard = some route)
    (tag : Text) :
    request.compile tag = (request.unrouted.compile tag).map (·.withPragma (route.pragma tag)) := by
  obtain ⟨kind, operation, query, set, ignored, bindings, shard⟩ := request
  have hshard : shard = some route := h
  subst hshard
  simp only [compile, unrouted, bind, Except.bind]
  cases Dialect.resolve kind with
  | error cause => rfl
  | ok dialect =>
    cases operation with
    | update =>
      dsimp only
      cases compileUpdate dialect query set ignored <;> rfl
    | delete =>
      dsimp only
      cases compileDelete dialect query <;> rfl

/-- **The statement of a request with a route is rerouted as the route says exactly if the pragma of the
route is carried out**: its line is consumed, what stands behind it is the statement without the route, and
this is renamed from the logical to the physical table. -/
theorem reroute?_compile_iff {tag : Text} (htag : '\n' ∉ tag) {request : Request} {route : Route}
    (hroute : request.shard = some route) {statement : Statement}
    (hcompile : request.compile tag = .ok statement) :
    ∃ plain, request.unrouted.compile tag = .ok plain
      ∧ (splitFirstLine statement.sql = ((route.pragma tag).line ++ ['\r'], plain.sql)
            ∧ reroute? tag statement.sql
              = some (renameTable route.logical route.physical plain.sql)
          ↔ (route.pragma tag).IsCarriedOut plain.sql) := by
  rw [compile_of_shard hroute] at hcompile
  cases hplain : request.unrouted.compile tag with
  | error cause =>
    rw [hplain] at hcompile
    cases hcompile
  | ok plain =>
    rw [hplain] at hcompile
    cases hcompile
    exact ⟨plain, rfl, (route.pragma tag).reroute?_attach_iff htag plain.sql⟩

/-- The deletion of an order from the table of a year. -/
def yearlyDeletion : Request where
  kind := "mysql".toList
  operation := .delete
  query := "SELECT `o`.`Id` FROM `Orders` AS `o` WHERE `o`.`Id` = @p0".toList
  set := []
  ignored := .empty
  bindings := []
  shard := some ⟨"`Orders`".toList, "`Orders_2024`".toList⟩

/-- The statement of `yearlyDeletion` is rerouted to the table of the year. -/
theorem reroute?_compile_yearlyDeletion :
    ∃ plain, yearlyDeletion.unrouted.compile "SHARD".toList = .ok plain
      ∧ reroute? "SHARD".toList
          "-- SHARD:`Orders`:`Orders_2024`\r\nDELETE FROM `Orders`\nWHERE `Id` = @p0".toList
        = some (renameTable "`Orders`".toList "`Orders_2024`".toList plain.sql) := by
  have hcompile : yearlyDeletion.compile "SHARD".toList
      = .ok ⟨"-- SHARD:`Orders`:`Orders_2024`\r\nDELETE FROM `Orders`\nWHERE `Id` = @p0".toList, []⟩ := by
    decide +kernel
  obtain ⟨plain, hplain, hcarried⟩ := reroute?_compile_iff (by decide) rfl hcompile
  have hends : Text.endsInBreak "`Orders_2024`".toList = false := by decide
  refine ⟨plain, hplain, (hcarried.mpr ?_).2⟩
  refine ⟨by decide, by decide, by decide, by decide, by decide, by decide, ?_⟩
  intro hbreak
  exact absurd (hends.symm.trans hbreak) (by decide)

/-- The text of a request for a table whose name has a colon in it. -/
def colonRequestText : Text :=
  ("\x7b\"kind\":\"sqlserver\",\"operation\":\"delete\","
    ++ "\"query\":\"SELECT [o].[Id] FROM [Orders] AS [o] WHERE [o].[Id] = @p0\","
    ++ "\"shard\":\x7b\"from\":\"[Orders]\",\"to\":\"[Orders:2024]\"\x7d\x7d").toList

/-- The request that `colonRequestText` writes. -/
def colonRequest : Request where
  kind := "sqlserver".toList
  operation := .delete
  query := "SELECT [o].[Id] FROM [Orders] AS [o] WHERE [o].[Id] = @p0".toList
  set := []
  ignored := .empty
  bindings := []
  shard := some ⟨"[Orders]".toList, "[Orders:2024]".toList⟩

/-- A colon in the name of a table loses the route: the request is accepted and compiled, and its statement
is not rerouted, so that it deletes from the table that it should not touch. -/
theorem colon_in_route_is_lost :
    Request.read? colonRequestText = some colonRequest
      ∧ colonRequest.unrouted.compile "SHARD".toList
        = .ok ⟨"DELETE FROM [Orders]\nWHERE [Id] = @p0".toList, []⟩
      ∧ colonRequest.compile "SHARD".toList
        = .ok ⟨"-- SHARD:[Orders]:[Orders:2024]\r\nDELETE FROM [Orders]\nWHERE [Id] = @p0".toList, []⟩
      ∧ reroute? "SHARD".toList
          "-- SHARD:[Orders]:[Orders:2024]\r\nDELETE FROM [Orders]\nWHERE [Id] = @p0".toList
        = none
      ∧ renameTable "[Orders]".toList "[Orders:2024]".toList
          "DELETE FROM [Orders]\nWHERE [Id] = @p0".toList
        = "DELETE FROM [Orders:2024]\nWHERE [Id] = @p0".toList := by
  refine ⟨?_, ?_, ?_, ?_, ?_⟩
  all_goals decide +kernel

end Request

end BulkDml
