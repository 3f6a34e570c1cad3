import Tabula.Proofs.Database.Fits
import Tabula.Proofs.Query.Origin

/-!
# Chains of joins

The chains that a join plan is made from, with the origins that their steps come to. Main statement:
the checks of the steps are true for a choice of records exactly if the steps lead from record to
record (`Chains.all_checks`).
-/

namespace Tabula

open Sql (JoinStep)
open Store (Check Choice Place Relation Row Source checkOfStep combinations locate sameName)

/-! ## Stored tables -/

/-- Whether the table of an origin is the one that a database has under its name. -/
structure Origin.IsStored (db : Database) (o : Origin) : Prop where
  table : db.catalog.table? o.table.name = some o.table
  relation : db.store.relation? o.table.name = some o.relation

/-- The records of the table of an origin suit it. -/
theorem Origin.IsStored.records_eq {db : Database} {o : Origin} (h : o.IsStored db) :
    db.records o.table.name = o.relation.rows.map fun r => ⟨o.table, o.relation, r⟩ :=
  Database.records_eq h.table h.relation

/-- A table of the catalog is stored if a database fits its catalog. -/
theorem Database.Fits.isStored {db : Database} (h : db.Fits) {table : String} {t : Table}
    (ht : db.catalog.table? table = some t) (name : String) :
    t.name = table ∧ ∃ rel, (Origin.mk name t rel).IsStored db := by
  obtain ⟨rel, hrel, -⟩ := h.holds table t ht
  have hname := h.name_eq table t ht
  refine ⟨hname, rel, ?_, hrel⟩
  rw [hname]
  exact ht

/-! ## Steps -/

/-- What a step that is planned is. -/
theorem Join.step_eq_ok {catalog : Catalog} {aliasName source : String} {table joined : Table}
    {index : Nat} {last : Bool} {parts : List String} {s : JoinStep}
    (h : Join.step catalog aliasName source table index last parts = .ok (s, joined)) :
    ∃ (left right : Column) (name target : String) (method : Comparison),
      parts = [left.name, name, target, right.name] ∧ Comparison.ofName? name = some method ∧
        left ∈ table.columns ∧ right ∈ joined.columns ∧ catalog.table? target = some joined ∧
        s = ⟨joined.name, Join.stepAlias aliasName index last, ⟨source, left.name⟩, method,
          right.name⟩ := by
  unfold Join.step at h
  split at h
  · next column name target targetColumn =>
      obtain ⟨method, hmethod, h⟩ := Except.bind_eq_ok_iff.1 h
      obtain ⟨t, ht, h⟩ := Except.bind_eq_ok_iff.1 h
      obtain ⟨left, hleft, h⟩ := Except.bind_eq_ok_iff.1 h
      obtain ⟨right, hright, h⟩ := Except.bind_eq_ok_iff.1 h
      obtain ⟨rfl, rfl⟩ := Prod.mk.inj (Except.ok.inj h)
      obtain ⟨hleft_mem, rfl⟩ := Table.column_eq_ok hleft
      obtain ⟨hright_mem, rfl⟩ := Table.column_eq_ok hright
      refine ⟨left, right, name, target, method, rfl, ?_, hleft_mem, hright_mem,
        Catalog.table_eq_ok_iff.1 ht, rfl⟩
      unfold Join.stepMethod at hmethod
      split at hmethod
      · cases hmethod
      · next found hfound =>
          split at hmethod
          · cases hmethod
          · obtain rfl := Except.ok.inj hmethod
            exact hfound
  · cases h

/-- A chain that is planned goes on from the table that its first step leads to. -/
theorem Join.chain_cons_eq_ok {catalog : Catalog} {aliasName source : String}
    {table lastTable : Table} {index : Nat} {parts : List String} {rest : List (List String)}
    {steps : List JoinStep}
    (h : Join.chain catalog aliasName source table index (parts :: rest)
      = .ok (steps, lastTable)) :
    ∃ first joined others,
      Join.step catalog aliasName source table index rest.isEmpty parts = .ok (first, joined) ∧
        Join.chain catalog aliasName first.aliasName joined (index + 1) rest
          = .ok (others, lastTable) ∧ steps = first :: others := by
  rw [Join.chain] at h
  obtain ⟨⟨first, joined⟩, hfirst, h⟩ := Except.bind_eq_ok_iff.1 h
  obtain ⟨⟨others, final⟩, hothers, h⟩ := Except.bind_eq_ok_iff.1 h
  obtain ⟨rfl, rfl⟩ := Prod.mk.inj (Except.ok.inj h)
  exact ⟨first, joined, others, hfirst, hothers, rfl⟩

/-! ## Single chains -/

/-- The steps of a chain that has come to an origin, and the origins that they come to. -/
inductive Chain (db : Database) (aliasName : String) :
    Nat → Origin → List (List String) → List JoinStep → List Origin → Prop
  | nil {index : Nat} {here : Origin} : Chain db aliasName index here [] [] []
  | cons {index : Nat} {here there : Origin} {left right : Column} {name : String}
      {method : Comparison} {steps : List (List String)} {joined : List JoinStep}
      {origins : List Origin}
      (method_eq : Comparison.ofName? name = some method)
      (left_mem : left ∈ here.table.columns)
      (right_mem : right ∈ there.table.columns)
      (name_eq : there.name = Join.stepAlias aliasName index steps.isEmpty)
      (isStored : there.IsStored db)
      (rest : Chain db aliasName (index + 1) there steps joined origins) :
      Chain db aliasName index here ([left.name, name, there.table.name, right.name] :: steps)
        (⟨there.table.name, there.name, ⟨here.name, left.name⟩, method, right.name⟩ :: joined)
        (there :: origins)

/-- What a step of a statement joins: the source of an origin. -/
structure JoinStep.Joins (step : JoinStep) (o : Origin) : Prop where
  aliasName : step.aliasName = o.name
  table : step.table = o.table.name

namespace Chain

variable {db : Database} {aliasName : String} {index : Nat} {here : Origin}
  {steps : List (List String)} {joined : List JoinStep} {origins : List Origin}

theorem names_eq (h : Chain db aliasName index here steps joined origins) :
    origins.map Origin.name = Join.stepNames aliasName index steps := by
  induction h with
  | nil => rfl
  | cons _ _ _ hname _ _ ih => rw [List.map_cons, Join.stepNames, ih, hname]

theorem isStored (h : Chain db aliasName index here steps joined origins) :
    ∀ o ∈ origins, o.IsStored db := by
  induction h with
  | nil => simp
  | cons _ _ _ _ hstored _ ih =>
      intro o ho
      rcases List.mem_cons.1 ho with rfl | ho
      · exact hstored
      · exact ih o ho

theorem forall₂_joins (h : Chain db aliasName index here steps joined origins) :
    List.Forall₂ JoinStep.Joins joined origins := by
  induction h with
  | nil => exact .nil
  | cons _ _ _ _ _ _ ih => exact .cons ⟨rfl, rfl⟩ ih

/-- The last origin of a chain has the name of its alias. -/
theorem name_of_getLast? (h : Chain db aliasName index here steps joined origins) {o : Origin}
    (ho : origins.getLast? = some o) : o.name = aliasName := by
  induction h with
  | nil => cases ho
  | @cons index here there left right name method steps joined origins _ _ _ hname _ hrest ih =>
      cases hrest with
      | nil =>
          obtain rfl : there = o := by simpa using ho
          exact hname
      | cons => exact ih (by simpa using ho)

/-- A chain with a step comes to some origin at last. -/
theorem exists_getLast? {step : List String}
    (h : Chain db aliasName index here (step :: steps) joined origins) :
    ∃ last, origins.getLast? = some last := by
  cases h with
  | cons => exact ⟨_, List.getLast?_eq_some_getLast (List.cons_ne_nil _ _)⟩

/-- A way along a chain has a record of each origin. -/
theorem suits (h : Chain db aliasName index here steps joined origins) {way : List Record}
    (hway : way ∈ db.waysAlong steps) : List.Forall₂ Origin.Suits origins way := by
  induction h generalizing way with
  | nil =>
      obtain rfl : way = [] := by simpa [Database.waysAlong] using hway
      exact .nil
  | @cons index here there left right name method steps joined origins _ _ _ _ hstored _ ih =>
      rw [Database.waysAlong, List.mem_flatMap] at hway
      obtain ⟨r, hr, hway⟩ := hway
      obtain ⟨rest, hrest, rfl⟩ := List.mem_map.1 hway
      rw [show Join.target _ = there.table.name from rfl, hstored.records_eq] at hr
      obtain ⟨row, -, rfl⟩ := List.mem_map.1 hr
      exact .cons ⟨rfl, rfl⟩ (ih hrest)

/-- The ways along a chain are the combinations of the rows of its origins. -/
theorem rows_waysAlong (h : Chain db aliasName index here steps joined origins) :
    (db.waysAlong steps).map (List.map Record.row) = combinations (origins.map Origin.relation) := by
  induction h with
  | nil => rfl
  | @cons index here there left right name method steps joined origins _ _ _ _ hstored _ ih =>
      rw [Database.waysAlong, List.map_flatMap, List.map_cons, combinations, ← ih,
        show Join.target _ = there.table.name from rfl, hstored.records_eq, List.flatMap_map]
      congr 1
      funext row
      rw [List.map_map, List.map_map]
      rfl

/-- The steps of a chain that is planned come to origins. -/
theorem exists_of_chain (hfits : db.Fits) {last : Table}
    (h : Join.chain db.catalog aliasName here.name here.table index steps = .ok (joined, last)) :
    ∃ origins, Chain db aliasName index here steps joined origins ∧
      (origins.getLast?.getD here).table = last := by
  induction steps generalizing index here joined with
  | nil =>
      obtain ⟨rfl, rfl⟩ := Prod.mk.inj (Except.ok.inj h)
      exact ⟨[], .nil, rfl⟩
  | cons parts steps ih =>
      obtain ⟨s, table, rest, hstep, hrest, rfl⟩ := Join.chain_cons_eq_ok h
      obtain ⟨left, right, name, target, method, rfl, hmethod, hleft, hright, htable, rfl⟩ :=
        Join.step_eq_ok hstep
      obtain ⟨rfl, rel, hthere⟩ := hfits.isStored htable
        (Join.stepAlias aliasName index steps.isEmpty)
      -- The rest of the chain starts at the origin that this step comes to.
      have hrest : Join.chain db.catalog aliasName
          (Origin.mk (Join.stepAlias aliasName index steps.isEmpty) table rel).name table (index + 1)
          steps = .ok (rest, last) := hrest
      obtain ⟨origins, hchain, hlast⟩ := ih hrest
      refine ⟨_ :: origins, .cons hmethod hleft hright rfl hthere hchain, ?_⟩
      rw [← hlast, List.getLast?_cons, Option.getD_some]

/-! ### Checks of a chain -/

variable {sources : List Source} {all : List Origin} {records : List Record}

/-- The steps of a chain have checks. -/
theorem exists_checks (h : Chain db aliasName index here steps joined origins)
    (hstage : Stage sources all) (hhere : here ∈ all) (horigins : ∀ o ∈ origins, o ∈ all) :
    ∃ checks, joined.mapM (checkOfStep sources) = .ok checks ∧
      ∀ check ∈ checks, ∀ p ∈ check.places, p.IsIn sources := by
  induction h with
  | nil => exact ⟨[], rfl, by simp⟩
  | @cons index here there left right name method steps joined origins _ hleft hright _ _ _ ih =>
      have hthere : there ∈ all := horigins there List.mem_cons_self
      obtain ⟨p, hp, hpsound⟩ := hstage.exists_place hhere hleft
      obtain ⟨q, hq, hqsound⟩ := hstage.exists_place hthere hright
      obtain ⟨checks, hchecks, hsound⟩ := ih hthere fun o ho => horigins o (List.mem_cons_of_mem _ ho)
      have hcheck : checkOfStep sources
          ⟨there.table.name, there.name, ⟨here.name, left.name⟩, method, right.name⟩
            = .ok (.column p method q) :=
        Store.checkOfStep_eq_ok_iff.2 ⟨p, q, hp, hq, rfl⟩
      refine ⟨.column p method q :: checks, ?_, ?_⟩
      · rw [List.mapM_cons, hcheck, hchecks]
        rfl
      · intro check hmem place hplace
        rcases List.mem_cons.1 hmem with rfl | hmem
        · rcases List.mem_cons.1 hplace with rfl | hplace
          · exact hpsound
          · obtain rfl := List.mem_singleton.1 hplace
            exact hqsound
        · exact hsound check hmem place hplace

/-- The check of a step is true when the step leads from one record to the other, and passes over one
of them when the step does. -/
theorem eval_column {here there : Record} {choice : Choice} {p q : Place} {left right name : String}
    {method : Comparison} (target : String) (hmethod : Comparison.ofName? name = some method)
    (hleft : Shows choice p (here.datum left)) (hright : Shows choice q (there.datum right)) :
    ((Check.column p method q).eval choice).holds
        = Join.leads here there [left, name, target, right] ∧
      (Check.column p method q).passesOver choice
        = Join.passesOver here there [left, name, target, right] := by
  constructor
  · unfold Join.leads
    dsimp only
    rw [hmethod]
    show (Store.compareCells method (some p.affinity) (some q.affinity)
      (Store.cellAt choice p) (Store.cellAt choice q)).holds = _
    rw [hleft.affinity, hleft.cell, hright.affinity, hright.cell]
    rfl
  · unfold Join.passesOver Check.passesOver
    dsimp only
    rw [hmethod, hleft.passesOver, hright.passesOver, hleft.cell, hright.cell]
    simp

/-- The checks of the steps of a chain are true when the steps lead from record to record, and pass
over one when the steps do. -/
theorem all_checks (h : Chain db aliasName index here steps joined origins)
    (hstage : Stage sources all) (hsuits : List.Forall₂ Origin.Suits all records)
    {checks : List Check} (hchecks : joined.mapM (checkOfStep sources) = .ok checks) {r : Record}
    (hr : (here, r) ∈ all.zip records) {way : List Record}
    (hway : List.Forall₂ Origin.Suits origins way)
    (hzip : ∀ entry ∈ origins.zip way, entry ∈ all.zip records) :
    (checks.all fun c => (c.eval (choiceOf records)).holds) = Join.follows r steps way ∧
      checks.any (Check.passesOver (choiceOf records)) = Join.passesOverAny r steps way := by
  induction h generalizing r way checks with
  | nil =>
      obtain rfl := Except.ok.inj hchecks
      cases hway
      exact ⟨rfl, rfl⟩
  | @cons index here there left right name method steps joined origins hmethod hleft hright _ _ _
      ih =>
      rw [List.mapM_cons] at hchecks
      obtain ⟨check, hcheck, hchecks⟩ := Except.bind_eq_ok_iff.1 hchecks
      obtain ⟨rest, hrest, hchecks⟩ := Except.bind_eq_ok_iff.1 hchecks
      obtain rfl := Except.ok.inj hchecks
      obtain ⟨p, q, hp, hq, rfl⟩ := Store.checkOfStep_eq_ok_iff.1 hcheck
      cases hway with
      | @cons _ next _ way _ hway =>
          have hnext : (there, next) ∈ all.zip records := hzip _ List.mem_cons_self
          have hshown := hstage.shows hsuits hr hleft hp
          have hshown' := hstage.shows hsuits hnext hright hq
          obtain ⟨hleads, hpasses⟩ := eval_column there.table.name hmethod hshown hshown'
          obtain ⟨hfollows, hpassesAny⟩ := ih hrest hnext hway fun entry hentry =>
            hzip entry (List.mem_cons_of_mem _ hentry)
          rw [List.all_cons, List.any_cons, hleads, hpasses, hfollows, hpassesAny]
          exact ⟨rfl, rfl⟩

end Chain

/-! ## All chains -/

/-- The chains of all aliases, each with the origin that the alias names. -/
inductive Chains (db : Database) (base : Origin) :
    JoinSpec → List JoinStep → Assoc Origin → List Origin → Prop
  | nil : Chains db base [] [] [] []
  | cons {aliasName : String} {steps : List (List String)} {joined others : List JoinStep}
      {joins : JoinSpec} {aliases : Assoc Origin} {origins further : List Origin} {last : Origin}
      (chain : Chain db aliasName 0 base steps joined origins)
      (last_eq : origins.getLast? = some last)
      (rest : Chains db base joins others aliases further) :
      Chains db base ((aliasName, steps) :: joins) (joined ++ others) ((aliasName, last) :: aliases)
        (origins ++ further)

/-- The table of each alias. -/
def tablesOf (aliases : Assoc Origin) : Assoc Table := aliases.map fun (name, o) => (name, o.table)

theorem find?_tablesOf (aliases : Assoc Origin) (name : String) :
    Assoc.find? (tablesOf aliases) name = (Assoc.find? aliases name).map Origin.table := by
  unfold Assoc.find? tablesOf
  rw [List.find?_map, Option.map_map, Option.map_map]
  rfl

namespace Chains

variable {db : Database} {base : Origin} {joins : JoinSpec} {joined : List JoinStep}
  {aliases : Assoc Origin} {origins : List Origin}

/-- The joins that are planned are chains. -/
theorem exists_of_plan (hfits : db.Fits) (hname : base.name = base.table.name)
    {p : JoinPlan} (h : Join.plan db.catalog base.table joins = .ok p) :
    ∃ aliases origins, Chains db base joins p.steps aliases origins ∧
      p.aliases = tablesOf aliases := by
  induction joins generalizing p with
  | nil =>
      obtain rfl := Except.ok.inj h
      exact ⟨[], [], .nil, rfl⟩
  | cons entry joins ih =>
      obtain ⟨aliasName, steps⟩ := entry
      rw [Join.plan] at h
      obtain ⟨_, -, h⟩ := Except.bind_eq_ok_iff.1 h
      cases steps with
      | nil => cases h
      | cons step steps =>
          obtain ⟨⟨joined, last⟩, hchain, h⟩ := Except.bind_eq_ok_iff.1 h
          obtain ⟨others, hothers, h⟩ := Except.bind_eq_ok_iff.1 h
          obtain rfl := Except.ok.inj h
          rw [← hname] at hchain
          obtain ⟨origins, hfirst, hlast⟩ := Chain.exists_of_chain hfits hchain
          obtain ⟨aliases, further, hchains, haliases⟩ := ih hothers
          -- The alias of a chain stands for the last table that it comes to.
          obtain ⟨final, hfinal⟩ := hfirst.exists_getLast?
          obtain rfl : final.table = last := by
            rw [← hlast, hfinal]
            rfl
          refine ⟨(aliasName, final) :: aliases, origins ++ further,
            .cons hfirst hfinal hchains, ?_⟩
          rw [haliases]
          rfl

theorem names_eq (h : Chains db base joins joined aliases origins) :
    origins.map Origin.name
      = joins.flatMap fun (aliasName, steps) => Join.stepNames aliasName 0 steps := by
  induction h with
  | nil => rfl
  | cons hchain _ _ ih => rw [List.map_append, hchain.names_eq, ih, List.flatMap_cons]

theorem isStored (h : Chains db base joins joined aliases origins) :
    ∀ o ∈ origins, o.IsStored db := by
  induction h with
  | nil => simp
  | cons hchain _ _ ih =>
      intro o ho
      rcases List.mem_append.1 ho with ho | ho
      · exact hchain.isStored o ho
      · exact ih o ho

theorem forall₂_joins (h : Chains db base joins joined aliases origins) :
    List.Forall₂ JoinStep.Joins joined origins := by
  induction h with
  | nil => exact .nil
  | cons hchain _ _ ih => exact List.rel_append hchain.forall₂_joins ih

/-- The records of all ways, alias by alias. -/
def recordsOf (m : Assoc (List Record)) : List Record := m.flatMap (·.2)

/-- The ways of all aliases have a record of each origin. -/
theorem suits (h : Chains db base joins joined aliases origins) {m : Assoc (List Record)}
    (hm : m ∈ db.chains joins) : List.Forall₂ Origin.Suits origins (recordsOf m) := by
  induction h generalizing m with
  | nil =>
      obtain rfl : m = [] := by simpa [Database.chains] using hm
      exact .nil
  | cons hchain _ _ ih =>
      obtain ⟨way, hway, rest, hrest, rfl⟩ := Database.mem_chains_cons.1 hm
      exact List.rel_append (hchain.suits hway) (ih hrest)

/-- The ways of all aliases are the combinations of the rows of their origins. -/
theorem rows_chains (h : Chains db base joins joined aliases origins) :
    (db.chains joins).map (fun m => (recordsOf m).map Record.row)
      = combinations (origins.map Origin.relation) := by
  induction h with
  | nil => rfl
  | cons hchain _ _ ih =>
      rw [List.map_append, Store.combinations_append, ← hchain.rows_waysAlong, ← ih,
        Database.chains, List.map_flatMap, List.flatMap_map]
      congr 1
      funext way
      rw [List.map_map, List.map_map]
      congr 1
      funext m
      exact List.map_append

/-- The aliases are those of the ways. -/
theorem keys_eq (h : Chains db base joins joined aliases origins) {m : Assoc (List Record)}
    (hm : m ∈ db.chains joins) : m.map (·.1) = joins.map (·.1) := by
  induction h generalizing m with
  | nil =>
      obtain rfl : m = [] := by simpa [Database.chains] using hm
      rfl
  | cons _ _ _ ih =>
      obtain ⟨way, -, rest, hrest, rfl⟩ := Database.mem_chains_cons.1 hm
      rw [List.map_cons, List.map_cons, ih hrest]

/-- Every alias is the name of an origin. -/
theorem exists_of_mem_keys (h : Chains db base joins joined aliases origins) {name : String}
    (hname : name ∈ joins.map (·.1)) : ∃ o ∈ origins, o.name = name := by
  induction h with
  | nil => cases hname
  | cons hchain hlast _ ih =>
      rcases List.mem_cons.1 hname with rfl | hname
      · exact ⟨_, List.mem_append_left _ (List.mem_of_getLast? hlast), hchain.name_of_getLast? hlast⟩
      · obtain ⟨o, ho, hoName⟩ := ih hname
        exact ⟨o, List.mem_append_right _ ho, hoName⟩

/-- No alias is declared twice if origins have distinct names. -/
theorem nodup_keys (h : Chains db base joins joined aliases origins)
    (hdistinct : origins.Pairwise fun o o' => sameName o.name o'.name = false) :
    (joins.map (·.1)).Nodup := by
  induction h with
  | nil => exact List.nodup_nil
  | cons hchain hlast hrest ih =>
      rw [List.pairwise_append] at hdistinct
      obtain ⟨-, hfurther, hacross⟩ := hdistinct
      rw [List.map_cons, List.nodup_cons]
      refine ⟨?_, ih hfurther⟩
      intro hmem
      obtain ⟨o, ho, hname⟩ := hrest.exists_of_mem_keys hmem
      have hne := hacross _ (List.mem_of_getLast? hlast) o ho
      rw [hchain.name_of_getLast? hlast, hname, Store.sameName_self] at hne
      cases hne

/-! ### Checks of all chains -/

variable {sources : List Source} {all : List Origin} {records : List Record}

/-- The steps of all chains have checks. -/
theorem exists_checks (h : Chains db base joins joined aliases origins) (hstage : Stage sources all)
    (hbase : base ∈ all) (horigins : ∀ o ∈ origins, o ∈ all) :
    ∃ checks, joined.mapM (checkOfStep sources) = .ok checks ∧
      ∀ check ∈ checks, ∀ p ∈ check.places, p.IsIn sources := by
  induction h with
  | nil => exact ⟨[], rfl, by simp⟩
  | cons hchain _ _ ih =>
      obtain ⟨checks, hchecks, hsound⟩ := hchain.exists_checks hstage hbase
        fun o ho => horigins o (List.mem_append_left _ ho)
      obtain ⟨more, hmore, hsound'⟩ := ih fun o ho => horigins o (List.mem_append_right _ ho)
      refine ⟨checks ++ more, ?_, ?_⟩
      · rw [List.mapM_append, hchecks, hmore]
        rfl
      · intro check hcheck
        rcases List.mem_append.1 hcheck with hcheck | hcheck
        · exact hsound check hcheck
        · exact hsound' check hcheck

/-- The entries of the first of two chains and of the other one stand side by side. -/
theorem mem_zip_append {origins further : List Origin} {way rest : List Record}
    (h : List.Forall₂ Origin.Suits origins way)
    (hzip : ∀ entry ∈ (origins ++ further).zip (way ++ rest), entry ∈ all.zip records) :
    (∀ entry ∈ origins.zip way, entry ∈ all.zip records) ∧
      ∀ entry ∈ further.zip rest, entry ∈ all.zip records := by
  rw [List.zip_append h.length_eq] at hzip
  exact ⟨fun entry hentry => hzip entry (List.mem_append_left _ hentry),
    fun entry hentry => hzip entry (List.mem_append_right _ hentry)⟩

/-- **Checks of joins are true where steps lead.** The checks of the steps of all chains are true for
a choice of records exactly if the steps of every alias lead from record to record, and pass over
a record exactly if the steps of an alias do. -/
theorem all_checks (h : Chains db base joins joined aliases origins) (hstage : Stage sources all)
    (hsuits : List.Forall₂ Origin.Suits all records) {checks : List Check}
    (hchecks : joined.mapM (checkOfStep sources) = .ok checks) {r : Record}
    (hr : (base, r) ∈ all.zip records) {m : Assoc (List Record)} (hm : m ∈ db.chains joins)
    {way : String → List Record} (hway : ∀ entry ∈ m, way entry.1 = entry.2)
    (hzip : ∀ entry ∈ origins.zip (recordsOf m), entry ∈ all.zip records) :
    (checks.all fun c => (c.eval (choiceOf records)).holds)
        = (joins.all fun (aliasName, steps) => Join.follows r steps (way aliasName)) ∧
      checks.any (Check.passesOver (choiceOf records))
        = joins.any fun (aliasName, steps) => Join.passesOverAny r steps (way aliasName) := by
  induction h generalizing m checks with
  | nil =>
      obtain rfl := Except.ok.inj hchecks
      exact ⟨rfl, rfl⟩
  | cons hchain _ _ ih =>
      rw [List.mapM_append] at hchecks
      obtain ⟨first, hfirst, hchecks⟩ := Except.bind_eq_ok_iff.1 hchecks
      obtain ⟨more, hmore, hchecks⟩ := Except.bind_eq_ok_iff.1 hchecks
      obtain rfl := Except.ok.inj hchecks
      obtain ⟨own, hown, rest, hrest, rfl⟩ := Database.mem_chains_cons.1 hm
      obtain ⟨hzip, hzip'⟩ := mem_zip_append (hchain.suits hown) hzip
      obtain ⟨hleads, hpasses⟩ :=
        hchain.all_checks hstage hsuits hfirst hr (hchain.suits hown) hzip
      obtain ⟨hleads', hpasses'⟩ := ih hmore hrest
        (fun entry hentry => hway entry (List.mem_cons_of_mem _ hentry)) hzip'
      rw [List.all_append, List.all_cons, List.any_append, List.any_cons, hleads, hpasses, hleads',
        hpasses']
      dsimp only
      rw [hway _ List.mem_cons_self]
      exact ⟨rfl, rfl⟩

theorem exists_getLast?_of_forall₂ {origins : List Origin} {way : List Record} {last : Origin}
    (h : List.Forall₂ Origin.Suits origins way) (hlast : origins.getLast? = some last) :
    ∃ r, way.getLast? = some r ∧ (last, r) ∈ origins.zip way := by
  induction h with
  | nil => cases hlast
  | @cons o r origins way _ hrest ih =>
      cases hrest with
      | nil =>
          obtain rfl : o = last := by simpa using hlast
          exact ⟨r, rfl, List.mem_cons_self⟩
      | cons =>
          obtain ⟨r', hr', hmem⟩ := ih (by simpa using hlast)
          exact ⟨r', by simpa using hr', List.mem_cons_of_mem _ hmem⟩

/-- **An alias names its last record.** What an alias stands for is the last origin of its chain, and
the last record of its way is one of that origin. -/
theorem exists_last (h : Chains db base joins joined aliases origins) {source : String} {o : Origin}
    (ho : Assoc.find? aliases source = some o) :
    o ∈ origins ∧ o.name = source ∧
      ∀ m ∈ db.chains joins, ∀ way : String → List Record, (∀ entry ∈ m, way entry.1 = entry.2) →
        ∃ r, (way source).getLast? = some r ∧ (o, r) ∈ origins.zip (recordsOf m) := by
  induction h with
  | nil => cases ho
  | @cons aliasName steps joined others joins aliases origins further last hchain hlast _ ih =>
      rw [Assoc.find?, List.find?_cons] at ho
      by_cases hname : aliasName = source
      · obtain rfl : last = o := by simpa [hname] using ho
        subst hname
        -- It is the alias of the first chain, whose records come first in the list.
        refine ⟨List.mem_append_left _ (List.mem_of_getLast? hlast),
          hchain.name_of_getLast? hlast, ?_⟩
        intro m hm way hway
        obtain ⟨own, hown, rest, -, rfl⟩ := Database.mem_chains_cons.1 hm
        obtain ⟨r, hr, hmem⟩ := exists_getLast?_of_forall₂ (hchain.suits hown) hlast
        refine ⟨r, ?_, ?_⟩
        · rw [hway _ List.mem_cons_self]
          exact hr
        · show _ ∈ (origins ++ further).zip (own ++ recordsOf rest)
          rw [List.zip_append (hchain.suits hown).length_eq]
          exact List.mem_append_left _ hmem
      · obtain ⟨hmem, hoName, hway⟩ := ih (by simpa [hname, Assoc.find?] using ho)
        refine ⟨List.mem_append_right _ hmem, hoName, ?_⟩
        intro m hm way hentries
        obtain ⟨own, hown, rest, hrest, rfl⟩ := Database.mem_chains_cons.1 hm
        obtain ⟨r, hr, hzip⟩ := hway rest hrest way
          fun entry hentry => hentries entry (List.mem_cons_of_mem _ hentry)
        refine ⟨r, hr, ?_⟩
        show _ ∈ (origins ++ further).zip (own ++ recordsOf rest)
        rw [List.zip_append (hchain.suits hown).length_eq]
        exact List.mem_append_right _ hzip

end Chains

end Tabula
