import Tabula.Proofs.Database.Local
import Tabula.Proofs.Database.RoundTrip

/-!
# Commands on different tables

Without a generator of keys, two commands on different tables do the same in either order. Main
statement: as requests of their own they have the same results and leave the same database, and next
to each other in a batch they can change places (`execute_comm`).
-/

namespace Tabula

open Store (sameName)

/-- A command as a request of its own. -/
def Command.request : Command → Request
  | create r => .create r
  | update r => .update r
  | delete r => .delete r

namespace Database

variable {α β γ : Type} {catalog : Catalog} {name? other? : Option String} {a b db : Database}

/-- A request of one command is local to the table of the command. -/
theorem isLocal_execute (scoping : Scoping) (command : Command) :
    IsLocal catalog (target catalog command) (execute scoping command.request) := by
  cases command with
  | create r => exact (isLocal_create scoping r).mapResult _
  | update r => exact (isLocal_update scoping r).mapResult _
  | delete r => exact (isLocal_delete scoping r).mapResult _

/-- The name of the table that a catalog has for what should be a command. -/
def targetOfJson (catalog : Catalog) (raw : Json) : Option String :=
  (Command.ofJson raw).toOption.bind (target catalog)

/-- So is a command that is given as JSON. -/
theorem isLocal_runJson (raw : Json) : IsLocal catalog (targetOfJson catalog raw) (runJson raw) := by
  intro a b hab
  unfold runJson
  unfold targetOfJson at hab ⊢
  cases hcommand : Command.ofJson raw with
  | error e =>
      rw [hcommand] at hab
      exact isLocal_const (.error e) a b hab
  | ok command =>
      rw [hcommand] at hab
      exact isLocal_run .joined command a b hab

/-- Different names have tables of different names. -/
theorem areApart_target {tables : List Table} (hbuild : Catalog.build tables = .ok catalog)
    (hdistinct : tables.Pairwise fun t u => sameName t.name u.name = false) {c d : Command}
    (hne : c.table ≠ d.table) : AreApart (target catalog c) (target catalog d) := by
  intro name hname other hother
  obtain ⟨t, ht, rfl⟩ := Option.map_eq_some_iff.1 hname
  obtain ⟨u, hu, rfl⟩ := Option.map_eq_some_iff.1 hother
  obtain ⟨htname, htmem⟩ := Catalog.mem_of_table? hbuild ht
  obtain ⟨huname, humem⟩ := Catalog.mem_of_table? hbuild hu
  rw [Bool.eq_false_iff]
  intro hsame
  obtain rfl := Catalog.eq_of_sameName_of_build hbuild hdistinct t htmem u humem hsame
  exact hne (htname.symm.trans huname)

/-! ## Batches -/

/-- Databases that differ in rows and in the id of the last row only. -/
def SameButRows (a b : Database) : Prop :=
  { a with store := { a.store with relations := b.store.relations, lastId := b.store.lastId } } = b

theorem SameButRows.trans {c : Database} (h : SameButRows a b) (h' : SameButRows b c) :
    SameButRows a c := by
  unfold SameButRows at h h' ⊢
  rw [← h', ← h]

/-- Putting a table changes no more than rows. -/
theorem sameButRows_put (db : Database) (rel? : Option Store.Relation) (id : Int64) :
    SameButRows db (db.put rel? id) := by
  unfold SameButRows put
  cases rel? <;> rfl

section Steps

variable {step : γ → Operation β} {name : γ → Option String}

/-- What operations do one after the other does not depend on the id of the last row. -/
theorem inOrder_congr (hstep : ∀ item, IsLocal catalog (name item) (step item)) (items : List γ)
    (index : Nat) (h : SameButLastId a b) (hcatalog : a.catalog = catalog) (hkeys : a.keys = none) :
    (inOrder step index items a).1 = (inOrder step index items b).1 ∧
      SameButLastId (inOrder step index items a).2 (inOrder step index items b).2 ∧
      SameButRows a (inOrder step index items a).2 := by
  induction items generalizing a b index with
  | nil => exact ⟨rfl, h, rfl⟩
  | cons item items ih =>
      obtain ⟨result, rel?, -, ⟨id, ha⟩, id', hb⟩ := hstep item a b (h.agreeOn hcatalog hkeys _)
      have hput : SameButLastId (a.put rel? id) (b.put rel? id') := h.put rel? id id'
      have hrows := sameButRows_put a rel? id
      unfold inOrder
      rw [ha, hb]
      cases result with
      | error e => exact ⟨rfl, hput, hrows⟩
      | ok answer =>
          obtain ⟨hresult, hlast, hrest⟩ := ih (index + 1) hput hcatalog hkeys
          dsimp only
          generalize inOrder step (index + 1) items (a.put rel? id) = one at hresult hlast hrest
          generalize inOrder step (index + 1) items (b.put rel? id') = other at hresult hlast
          obtain ⟨result, after⟩ := one
          obtain ⟨_, after'⟩ := other
          obtain rfl := hresult
          cases result with
          | error e => exact ⟨rfl, hlast, hrows.trans hrest⟩
          | ok answers => exact ⟨rfl, hlast, hrows.trans hrest⟩

end Steps

/-- Whether the results of two lists of operations are the same but for two answers that have changed
places, of which the first comes after `n` others; or whether both lists fail. -/
inductive Exchanged (n : Nat) : Except Error (List β) → Except Error (List β) → Prop
  | ok {before after : List β} {x y : β} (length_eq : before.length = n) :
    Exchanged n (.ok (before ++ x :: y :: after)) (.ok (before ++ y :: x :: after))
  | error {e e' : Error} : Exchanged n (.error e) (.error e')

/-- What two lists of operations come to in a database if it makes no difference that two operations
have changed places. -/
structure ComesToSame (n : Nat) (db : Database) (one other : Except Error (List β) × Database) :
    Prop where
  result : Exchanged n one.1 other.1
  database : one.1.isOk = true → SameButLastId one.2 other.2
  rows : SameButRows db one.2
  rows' : SameButRows db other.2

/-- Two lists of operations that fail come to the same. -/
theorem ComesToSame.of_errors {n : Nat} {one other : Database} {e e' : Error}
    (hone : SameButRows db one) (hother : SameButRows db other) :
    ComesToSame n db ((.error e, one) : Except Error (List β) × Database) (.error e', other) :=
  ⟨.error, nofun, hone, hother⟩

section Exchange

variable {step : γ → Operation β} {name : γ → Option String} {x y : γ}

/-- A local operation changes no more than rows. -/
theorem sameButRows_of_isLocal {operation : Operation α} (h : IsLocal catalog name? operation)
    (hcatalog : db.catalog = catalog) (hkeys : db.keys = none) :
    SameButRows db (operation db).2 := by
  have hself : SameButLastId db db := rfl
  obtain ⟨result, rel?, -, ⟨id, hdone⟩, -⟩ := h db db (hself.agreeOn hcatalog hkeys name?)
  rw [hdone]
  exact sameButRows_put db rel? id

/-- The catalog is no matter of rows. -/
theorem SameButRows.catalog_eq (h : SameButRows a b) : b.catalog = a.catalog := by
  rw [← h]

/-- Nor are the keys. -/
theorem SameButRows.keys_eq (h : SameButRows a b) : b.keys = a.keys := by
  rw [← h]

/-- Two operations on tables of different names that come first can change places. -/
theorem comesToSame_first (hstep : ∀ item, IsLocal catalog (name item) (step item))
    (hapart : AreApart (name x) (name y)) (after : List γ) (index : Nat)
    (hcatalog : db.catalog = catalog) (hkeys : db.keys = none) :
    ComesToSame 0 db (inOrder step index (x :: y :: after) db)
      (inOrder step index (y :: x :: after) db) := by
  -- Each of the two gives the same answer whichever comes first. So if one fails, both lists do,
  -- and otherwise they go on from databases that differ in the id of the last row at most.
  obtain ⟨hy, hx, hsame⟩ := (hstep x).comm (hstep y) hapart hcatalog hkeys
  have hxrows := sameButRows_of_isLocal (hstep x) hcatalog hkeys
  have hyrows := sameButRows_of_isLocal (hstep y) hcatalog hkeys
  have hxyrows := hxrows.trans (sameButRows_of_isLocal (hstep y)
    (hxrows.catalog_eq.trans hcatalog) (hxrows.keys_eq.trans hkeys))
  have hyxrows := hyrows.trans (sameButRows_of_isLocal (hstep x)
    (hyrows.catalog_eq.trans hcatalog) (hyrows.keys_eq.trans hkeys))
  cases hx0 : step x db with
  | mk resultx dbx =>
  cases hy0 : step y db with
  | mk resulty dby =>
  rw [hx0, hy0] at hx hy hsame
  rw [hx0] at hxrows hxyrows
  rw [hy0] at hyrows hyxrows
  cases hy1 : step y dbx with
  | mk resulty' dbxy =>
  cases hx1 : step x dby with
  | mk resultx' dbyx =>
  rw [hx1] at hx hsame hyxrows
  rw [hy1] at hy hsame hxyrows
  obtain rfl : resultx' = resultx := hx
  obtain rfl : resulty' = resulty := hy
  cases resultx' with
  | error e =>
      cases resulty' with
      | error e' =>
          simp only [inOrder, hx0, hy0]
          exact .of_errors hxrows hyrows
      | ok b =>
          simp only [inOrder, hx0, hy0, hx1]
          exact .of_errors hxrows hyxrows
  | ok a =>
      cases resulty' with
      | error e' =>
          simp only [inOrder, hx0, hy0, hy1]
          exact .of_errors hxyrows hyrows
      | ok b =>
          -- The operations that come after both do the same in both databases.
          obtain ⟨hresult, hlast, hrest⟩ := inOrder_congr hstep after (index + 2) hsame
            (hxyrows.catalog_eq.trans hcatalog) (hxyrows.keys_eq.trans hkeys)
          have hself : SameButLastId dbyx dbyx := rfl
          obtain ⟨-, -, hrest'⟩ := inOrder_congr hstep after (index + 2) hself
            (hyxrows.catalog_eq.trans hcatalog) (hyxrows.keys_eq.trans hkeys)
          have hrest := hxyrows.trans hrest
          have hrest' := hyxrows.trans hrest'
          simp only [inOrder, hx0, hy0, hx1, hy1]
          generalize inOrder step (index + 2) after dbxy = one at hresult hlast hrest
          generalize inOrder step (index + 2) after dbyx = other at hresult hlast hrest'
          obtain ⟨result, last⟩ := one
          obtain ⟨_, last'⟩ := other
          obtain rfl := hresult
          cases result with
          | error e => exact .of_errors hrest hrest'
          | ok answers =>
              have hfirst : ([] : List β).length = 0 := rfl
              exact ⟨.ok hfirst, fun _ => hlast, hrest, hrest'⟩

/-- Two operations on tables of different names that come one after the other can change places. -/
theorem comesToSame_inOrder (hstep : ∀ item, IsLocal catalog (name item) (step item))
    (hapart : AreApart (name x) (name y)) (before after : List γ) (index : Nat)
    (hcatalog : db.catalog = catalog) (hkeys : db.keys = none) :
    ComesToSame before.length db (inOrder step index (before ++ x :: y :: after) db)
      (inOrder step index (before ++ y :: x :: after) db) := by
  -- By induction on the operations before the two, which both lists have in common.
  induction before generalizing db index with
  | nil => exact comesToSame_first hstep hapart after index hcatalog hkeys
  | cons item before ih =>
      have hrows := sameButRows_of_isLocal (hstep item) hcatalog hkeys
      rw [List.cons_append, List.cons_append, inOrder, inOrder]
      generalize step item db = done at hrows
      obtain ⟨result, next⟩ := done
      cases result with
      | error e => exact .of_errors hrows hrows
      | ok answer =>
          obtain ⟨hresult, hlast, hone, hother⟩ := ih (index + 1) (hrows.catalog_eq.trans hcatalog)
            (hrows.keys_eq.trans hkeys)
          have hone := hrows.trans hone
          have hother := hrows.trans hother
          dsimp only
          generalize inOrder step (index + 1) (before ++ x :: y :: after) next = one at *
          generalize inOrder step (index + 1) (before ++ y :: x :: after) next = other at *
          obtain ⟨result, last⟩ := one
          obtain ⟨result', last'⟩ := other
          cases hresult with
          | error => exact .of_errors hone hother
          | @ok answers answers' a b hlength =>
              have hlength : (answer :: answers).length = before.length + 1 := by simp [hlength]
              exact ⟨.ok hlength, hlast, hone, hother⟩

end Exchange

/-- In a transaction, what has failed makes no difference either. -/
theorem exchanged_transaction {n : Nat} {one other : Operation (List β)}
    (h : ComesToSame n (opened db) (one (opened db)) (other (opened db))) :
    Exchanged n (transaction one db).1 (transaction other db).1 ∧
      SameButLastId (transaction one db).2 (transaction other db).2 := by
  unfold transaction
  cases hopen : db.inTransaction with
  | true => exact ⟨.error, rfl⟩
  | false =>
      rw [if_neg nofun, if_neg nofun, show { db with inTransaction := true } = opened db from rfl]
      generalize one (opened db) = one at h
      generalize other (opened db) = other at h
      obtain ⟨hresult, hlast, hone, hother⟩ := h
      obtain ⟨result, after⟩ := one
      obtain ⟨result', after'⟩ := other
      cases hresult with
      | ok hlength =>
          have hafter : SameButLastId after after' := hlast rfl
          refine ⟨.ok hlength, ?_⟩
          show SameButLastId { after with inTransaction := false }
            { after' with inTransaction := false }
          rw [← hafter]
          rfl
      -- What has failed is undone in both, and what is left of it is the id of the last row.
      | error =>
          have hone : SameButRows (opened db) after := hone
          have hother : SameButRows (opened db) after' := hother
          refine ⟨.error, ?_⟩
          show SameButLastId (undone db after) (undone db after')
          rw [← hone, ← hother]
          rfl

/-- **Commands on different tables commute**, if no keys are generated and no two tables of the catalog
have the same name. As requests of their own they have the same results in either order, and leave
the same but for the id of the last row. In a batch of commands, or of JSON that is decoded to
commands, two that come one after the other can change places: then either both batches succeed, and
the two answers change places, or both fail, and again both leave the same. -/
theorem execute_comm {tables : List Table} {c d : Command}
    (hbuild : Catalog.build tables = .ok db.catalog)
    (hdistinct : tables.Pairwise fun t u => sameName t.name u.name = false)
    (hkeys : db.keys = none) (hne : c.table ≠ d.table) :
    ((execute .own d.request (execute .own c.request db).2).1 = (execute .own d.request db).1 ∧
      (execute .own c.request (execute .own d.request db).2).1 = (execute .own c.request db).1 ∧
      SameButLastId (execute .own d.request (execute .own c.request db).2).2
        (execute .own c.request (execute .own d.request db).2).2) ∧
    (∀ before after,
      let one := batch .own (before ++ c :: d :: after) db
      let other := batch .own (before ++ d :: c :: after) db
      Exchanged before.length one.1 other.1 ∧ SameButLastId one.2 other.2) ∧
    ∀ x y, Command.ofJson x = .ok c → Command.ofJson y = .ok d → ∀ before after,
      let one := batchJson .own (before ++ x :: y :: after) db
      let other := batchJson .own (before ++ y :: x :: after) db
      Exchanged before.length one.1 other.1 ∧ SameButLastId one.2 other.2 := by
  have hapart := areApart_target hbuild hdistinct hne
  refine ⟨?_, fun before after => ?_, fun x y hx hy before after => ?_⟩
  · exact (isLocal_execute .own c).comm (isLocal_execute .own d) hapart rfl hkeys
  · exact exchanged_transaction
      (comesToSame_inOrder (isLocal_run .joined) hapart before after 0 rfl hkeys)
  · have htarget {raw : Json} {command : Command} (h : Command.ofJson raw = .ok command) :
        targetOfJson db.catalog raw = target db.catalog command := by
      unfold targetOfJson
      rw [h]
      rfl
    have hapart : AreApart (targetOfJson db.catalog x) (targetOfJson db.catalog y) := by
      rwa [htarget hx, htarget hy]
    exact exchanged_transaction
      (comesToSame_inOrder isLocal_runJson hapart before after 0 rfl hkeys)

/-- Two takes and the deletion of all reels. -/
theorem execute_comm_takes :
    let add : Command := .create twoTakes
    let clear : Command := .delete ⟨"Reel", none⟩
    add.table ≠ clear.table ∧
      (execute .own add.request takesOpened).1.toOption.isSome = true ∧
      SameButLastId (execute .own clear.request (execute .own add.request takesOpened).2).2
        (execute .own add.request (execute .own clear.request takesOpened).2).2 ∧
      Exchanged 1 (batch .own [add, add, clear] takesOpened).1
        (batch .own [add, clear, add] takesOpened).1 := by
  intro add clear
  have hbuild : Catalog.build takes.tables = .ok takesOpened.catalog := by rfl
  have hdistinct : takes.tables.Pairwise fun t u => sameName t.name u.name = false := by decide
  have hne : add.table ≠ clear.table := by decide
  obtain ⟨⟨-, -, hsame⟩, hbatch, -⟩ := execute_comm hbuild hdistinct rfl hne
  exact ⟨hne, by decide +kernel, hsame, (hbatch [add] []).1⟩

end Database

end Tabula
