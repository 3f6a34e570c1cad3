import Std.Data.String.ToInt
import Tabula.Proofs.Database.Assigned
import Tabula.Proofs.Refusal

/-!
# Keys in sequence

A sequence hands out its numbers one after the other, each at a position of its own. A row that lacks
a key takes its turn: it is given the first number whose text is not in use, and the call fails if too
many are in use. Main statement: the turns of one call follow one another, on success each row that
lacks a key is created with the key of its turn, and the call fails for want of a key exactly if one
turn finds none (`Call.exists_serves`).
-/

namespace Tabula

namespace KeySource

/-! ## Positions -/

/-- The number at a position of the sequence that begins with `start`. The numbers wrap around at the
ends of their 64 bits. -/
def nth (start : Int64) (position : Nat) : Int64 := start + Int64.ofNat position

/-- The number at a position as the key of a column. -/
def keyAt (start : Int64) (type : ColumnType) (position : Nat) : Value :=
  keyOfInt type (nth start position)

variable {start : Int64} {i j : Nat}

@[simp] theorem nth_zero : nth start 0 = start := by simp [nth]

/-- Each number is one more than the one before it, in 64 bits. -/
theorem nth_succ (position : Nat) : nth start (position + 1) = nth start position + 1 := by
  unfold nth
  rw [Int64.ofNat_add, ← Int64.add_assoc]
  rfl

/-- Numbers do not repeat as long as their positions have 64 bits between them. -/
theorem nth_ne (hlt : i < j) (hspan : j < i + 2 ^ 64) : nth start i ≠ nth start j := by
  intro h
  have hoffset : Int64.ofNat i = Int64.ofNat j := Int64.add_right_inj start |>.1 h
  have hbits : i % 2 ^ 64 = j % 2 ^ 64 := by
    simpa using congrArg (fun n : Int64 => n.toBitVec.toNat) hoffset
  omega

/-- A key is told by its number, whatever its type. -/
theorem text_keyAt (type : ColumnType) (position : Nat) :
    (keyAt start type position).text = toString (nth start position).toInt := by
  unfold keyAt keyOfInt
  split <;> rfl

/-- Keys are told apart by their texts, whatever columns they are for. -/
theorem text_keyAt_ne {type type' : ColumnType} (hlt : i < j) (hspan : j < i + 2 ^ 64) :
    (keyAt start type i).text ≠ (keyAt start type' j).text := by
  rw [text_keyAt, text_keyAt]
  intro h
  exact nth_ne hlt hspan (Int64.toInt_inj.1 (Int.repr_inj.1 h))

end KeySource

open KeySource (nth keyAt)

/-! ## Turns -/

/-- What is drawn for a row that lacks a key: numbers from a position on, and the key if one of them is
not in use. -/
structure Turn where
  row : RowValues
  first : Nat
  count : Nat
  key : Option Value

namespace Turn

/-- The positions that are drawn in a turn. -/
def positions (turn : Turn) : List Nat := List.range' turn.first turn.count

/-- The position after a turn. -/
def next (turn : Turn) : Nat := turn.first + turn.count

/-- How many numbers are drawn in turns. -/
def total (turns : List Turn) : Nat := (turns.map Turn.count).sum

/-- Whether a turn draws, and gives the last number that it draws. -/
structure IsDrawn (start : Int64) (turn : Turn) : Prop where
  pos : 0 < turn.count
  key : ∀ key ∈ turn.key, ∃ type, key = keyAt start type (turn.next - 1)

/-- Whether turns follow one another from a position on. -/
inductive Follow (start : Int64) : Nat → List Turn → Prop
  | nil {first : Nat} : Follow start first []
  | cons {turn : Turn} {turns : List Turn} (isDrawn : turn.IsDrawn start)
    (follow : Follow start turn.next turns) : Follow start turn.first (turn :: turns)

variable {start : Int64} {first : Nat} {turn : Turn} {turns later : List Turn}

@[simp] theorem total_nil : total [] = 0 := rfl

@[simp] theorem total_cons : total (turn :: turns) = turn.count + total turns := by simp [total]

/-- The draws of turns one after the other add up. -/
@[simp] theorem total_append : total (turns ++ later) = total turns + total later := by
  simp [total]

namespace Follow

/-- Turns follow one another if the later ones begin where the first ones end. -/
theorem append (h : Follow start first turns) (hlater : Follow start (first + total turns) later) :
    Follow start first (turns ++ later) := by
  induction h with
  | nil => simpa using hlater
  | cons isDrawn _ ih => exact .cons isDrawn (ih (by simpa [next, Nat.add_assoc] using hlater))

/-- **Every position has one turn**, in order. -/
theorem flatMap_positions (h : Follow start first turns) :
    turns.flatMap positions = List.range' first (total turns) := by
  induction h with
  | nil => rfl
  | @cons turn turns _ _ ih =>
      rw [List.flatMap_cons, ih, total_cons]
      exact List.range'_append_1

/-- No turn begins before the first one. -/
theorem le_first (h : Follow start first turns) : ∀ turn ∈ turns, first ≤ turn.first := by
  induction h with
  | nil => simp
  | cons _ _ ih =>
      refine List.forall_mem_cons.2 ⟨Nat.le_refl _, fun other hother => ?_⟩
      exact Nat.le_trans (Nat.le_add_right _ _) (ih other hother)

/-- Turns that follow one another draw from the sequence. -/
theorem isDrawn (h : Follow start first turns) : ∀ turn ∈ turns, turn.IsDrawn start := by
  induction h with
  | nil => simp
  | cons isDrawn _ ih => exact List.forall_mem_cons.2 ⟨isDrawn, ih⟩

/-- **Turns give different keys** unless there are 64 bits of positions between them. -/
theorem pairwise_text_ne (h : Follow start first turns) :
    turns.Pairwise fun turn other => other.next < turn.next + 2 ^ 64 →
      ∀ key ∈ turn.key, ∀ key' ∈ other.key, key.text ≠ key'.text := by
  induction h with
  | nil => exact .nil
  | @cons turn turns isDrawn follow ih =>
      refine .cons (fun other hother hspan key hkey key' hkey' => ?_) ih
      obtain ⟨type, rfl⟩ := isDrawn.key key hkey
      have hpos := (follow.isDrawn other hother).pos
      obtain ⟨type', rfl⟩ := (follow.isDrawn other hother).key key' hkey'
      have hfirst := follow.le_first other hother
      have hturn : 0 < turn.next := Nat.lt_of_lt_of_le isDrawn.pos (Nat.le_add_left _ _)
      have hother : turn.next < other.next := by
        unfold next at *
        omega
      exact KeySource.text_keyAt_ne (by omega) (by omega)

end Follow

end Turn

open Turn (total Follow)

namespace Database

/-- How many numbers from a position on are in use before the first that is not, if there is one among
those that can be drawn for a row. -/
def skips (start : Int64) (type : ColumnType) (used : List String) (first attempts : Nat) :
    Option Nat :=
  (List.range attempts).find? fun i => !used.contains (keyAt start type (first + i)).text

/-- The turns of rows that lack a key. Each begins where the one before it ended; a key that is given
is in use from then on, and a turn that finds no key is the last one. -/
def turns (start : Int64) (c : Column) : List String → Nat → List RowValues → List Turn
  | _, _, [] => []
  | used, first, row :: rows =>
    if (suppliedKey? row c.name).isSome then turns start c used first rows
    else
      match skips start c.type used first maxDraws with
      | none => [⟨row, first, maxDraws, none⟩]
      | some skipped =>
        let key := keyAt start c.type (first + skipped)
        ⟨row, first, skipped + 1, some key⟩
          :: turns start c (key.text :: used) (first + skipped + 1) rows

variable {start : Int64} {c : Column} {t : Table} {used : List String} {first : Nat}
  {row : RowValues} {rows : List RowValues}

/-- A row that brings its own key takes no turn. -/
theorem turns_of_supplied {v : Value} (hv : suppliedKey? row c.name = some v) :
    turns start c used first (row :: rows) = turns start c used first rows := by
  rw [turns, hv, if_pos Option.isSome_some]

/-- A row without a key passes over the keys in use and takes the next one. -/
theorem turns_of_skips {skipped : Nat} (hnone : suppliedKey? row c.name = none)
    (hskips : skips start c.type used first maxDraws = some skipped) :
    turns start c used first (row :: rows)
      = ⟨row, first, skipped + 1, some (keyAt start c.type (first + skipped))⟩
        :: turns start c ((keyAt start c.type (first + skipped)).text :: used)
          (first + skipped + 1) rows := by
  rw [turns, hnone, if_neg (by simp), hskips]

/-- If that takes too many draws, the row is the last one and gets no key. -/
theorem turns_of_exhausted (hnone : suppliedKey? row c.name = none)
    (hskips : skips start c.type used first maxDraws = none) :
    turns start c used first (row :: rows) = [⟨row, first, maxDraws, none⟩] := by
  rw [turns, hnone, if_neg (by simp), hskips]

/-- **The turns of rows follow one another.** -/
theorem follow_turns : Follow start first (turns start c used first rows) := by
  induction rows generalizing used first with
  | nil => exact .nil
  | cons row rows ih =>
      cases hsupplied : suppliedKey? row c.name with
      | some v =>
          rw [turns_of_supplied hsupplied]
          exact ih
      | none =>
          cases hskips : skips start c.type used first maxDraws with
          | none =>
              rw [turns_of_exhausted hsupplied hskips]
              have hturn : Turn.IsDrawn start ⟨row, first, maxDraws, none⟩ := ⟨Nat.succ_pos _, nofun⟩
              exact .cons hturn .nil
          | some skipped =>
              rw [turns_of_skips hsupplied hskips]
              have hturn : Turn.IsDrawn start
                  ⟨row, first, skipped + 1, some (keyAt start c.type (first + skipped))⟩ := by
                refine ⟨Nat.succ_pos _, ?_⟩
                rintro key ⟨⟩
                exact ⟨c.type, rfl⟩
              exact .cons hturn ih

/-! ## Planning -/

/-- Drawing from a sequence goes on up to the first number that is not in use. -/
theorem drawUnused_sequence (hc : t.primaryKey? = some c) (attempts : Nat) :
    drawUnused t used attempts (KeySource.sequence (nth start first))
      = match skips start c.type used first attempts with
        | some skipped =>
          (.ok (keyAt start c.type (first + skipped)), .sequence (nth start (first + skipped + 1)))
        | none =>
          (.error (.database (.keysExhausted t.name maxDraws)),
            .sequence (nth start (first + attempts))) := by
  induction attempts generalizing first with
  | zero => rfl
  | succ attempts ih =>
      have hdraw : KeyGenerator.draw (KeySource.sequence (nth start first)) t
          = (.ok (keyAt start c.type first), KeySource.sequence (nth start (first + 1))) := by
        show KeySource.draw _ t = _
        rw [KeySource.draw, hc, KeySource.nth_succ]
        rfl
      have hskips : skips start c.type used first (attempts + 1)
          = if used.contains (keyAt start c.type first).text
            then (skips start c.type used (first + 1) attempts).map (· + 1) else some 0 := by
        have hshift : (fun i => !used.contains (keyAt start c.type (first + i)).text) ∘ Nat.succ
            = fun i => !used.contains (keyAt start c.type (first + 1 + i)).text := by
          funext i
          rw [Function.comp_apply, Nat.succ_eq_add_one, Nat.add_right_comm, Nat.add_assoc]
        unfold skips
        rw [List.range_succ_eq_map, List.find?_cons, List.find?_map, hshift, Nat.add_zero]
        cases used.contains (keyAt start c.type first).text with
        | true => rfl
        | false => rfl
      rw [drawUnused, hdraw, hskips]
      dsimp only
      split
      · rw [ih]
        cases skips start c.type used (first + 1) attempts with
        | none => simp [Nat.add_assoc, Nat.add_comm 1]
        | some skipped => simp [Nat.add_assoc, Nat.add_comm 1]
      · rfl

/-- Whether an error says that keys have run out. -/
def IsExhaustion (e : Error) : Prop :=
  ∃ table attempts, e = .database (.keysExhausted table attempts)

/-- No error of the data but exhaustion is exhaustion. -/
theorem coversData_not_isExhaustion : Error.CoversData fun e => ¬ IsExhaustion e := by
  rintro cause hcause ⟨table, attempts, h⟩
  exact hcause table attempts (Error.database.inj h)

/-- What planning carries along when a sequence is at a position. -/
def planningAt (start : Int64) (used : List String) (first : Nat) : Planning :=
  ⟨used, some (.sequence (nth start first))⟩

/-- What settling the key of one row adds to the turns: none if the row brings a key along, and else
one, in which the row is given its key. -/
inductive Takes (c : Column) (given row : RowValues) (key : Option Value) : List Turn → Prop
  | supplied (hv : (suppliedKey? given c.name).isSome = true) : Takes c given row key []
  | served {first count : Nat} {v : Value} (hnone : suppliedKey? given c.name = none)
    (hkey : key = some v) (hrow : Assoc.find? row c.name = some v) :
    Takes c given row key [⟨given, first, count, some v⟩]

/-- A row that is served takes no turn without a key. -/
theorem Takes.ne_none {given : RowValues} {key : Option Value} {served : List Turn}
    (h : Takes c given row key served) : ∀ turn ∈ served, turn.key ≠ none := by
  cases h <;> simp

/-- **A row that is settled takes its turn.** -/
theorem Settles.exists_takes (hc : t.primaryKey? = some c) {given : RowValues} {key : Option Value}
    {next : Planning} (h : Settles t (planningAt start used first) given row key next) :
    ∃ served used', Takes c given row key served ∧
      next = planningAt start used' (first + total served) ∧
      ∀ rows, turns start c used first (given :: rows)
        = served ++ turns start c used' (first + total served) rows := by
  cases h with
  | keyless hnone => cases hnone.symm.trans hc
  | left _ _ hkeys => cases hkeys
  | supplied hd hv =>
      obtain rfl := Option.some.inj (hd.symm.trans hc)
      exact ⟨[], used, .supplied (by rw [hv]; rfl), rfl, fun rows => turns_of_supplied hv⟩
  | @drawn d v source after hd hnone hkeys hdrawn =>
      obtain rfl := Option.some.inj (hd.symm.trans hc)
      obtain rfl := Option.some.inj hkeys
      rw [drawUnused_sequence hc] at hdrawn
      split at hdrawn
      · next skipped hskips =>
          obtain ⟨hv, rfl⟩ := Prod.mk.inj hdrawn
          obtain rfl := Except.ok.inj hv
          exact ⟨[⟨given, first, skipped + 1, some (keyAt start d.type (first + skipped))⟩],
            _, .served hnone rfl (Assoc.find?_insert_self _ _ _), rfl,
            fun rows => turns_of_skips hnone hskips⟩
      · cases (Prod.mk.inj hdrawn).1

/-- **A row that is not settled finds no key.** -/
theorem skips_of_settleKey (hc : t.primaryKey? = some c) {e : Error} {next : Planning}
    (h : settleKey t (planningAt start used first) row = (.error e, next)) :
    suppliedKey? row c.name = none ∧ skips start c.type used first maxDraws = none ∧
      e = .database (.keysExhausted t.name maxDraws) ∧
      next = planningAt start used (first + maxDraws) := by
  unfold settleKey planningAt at h
  rw [hc] at h
  dsimp only at h
  cases hsupplied : suppliedKey? row c.name with
  | some v => simp [hsupplied] at h
  | none =>
      rw [hsupplied] at h
      dsimp only at h
      rw [drawUnused_sequence hc] at h
      cases hskips : skips start c.type used first maxDraws with
      | some skipped => simp [hskips] at h
      | none =>
          rw [hskips] at h
          obtain ⟨he, rfl⟩ := Prod.mk.inj h
          exact ⟨rfl, rfl, (Except.error.inj he).symm, rfl⟩

/-- Where planning stops: at a row whose key cannot be settled, or whose values are refused. -/
inductive Stops (t : Table) : Planning → List RowValues → Error → Planning → Prop where
  | unsettled {p next : Planning} {given : RowValues} {givens : List RowValues} {e : Error}
      (hsettled : settleKey t p given = (.error e, next)) : Stops t p (given :: givens) e next
  | refused {p next : Planning} {given row : RowValues} {key : Option Value}
      {givens : List RowValues} {e : Error} (settles : Settles t p given row key next)
      (hinsert : Plan.insert t row = .error e) : Stops t p (given :: givens) e next
  | later {p next last : Planning} {given row : RowValues} {key : Option Value}
      {givens : List RowValues} {e : Error} (settles : Settles t p given row key next)
      (stops : Stops t next givens e last) : Stops t p (given :: givens) e last

/-- Rows that cannot be planned stop at one of them. -/
theorem stops_of_planRows {p last : Planning} {e : Error}
    (h : planRows t p rows = (.error e, last)) : Stops t p rows e last := by
  induction rows generalizing p with
  | nil => cases (Prod.mk.inj h).1
  | cons given rows ih =>
      unfold planRows at h
      split at h
      · next hsettled =>
          obtain ⟨he, rfl⟩ := Prod.mk.inj h
          obtain rfl := Except.error.inj he
          exact .unsettled hsettled
      · next hsettled =>
          have hsettles := settles_of_settleKey hsettled
          split at h
          · next hinsert =>
              obtain ⟨he, rfl⟩ := Prod.mk.inj h
              obtain rfl := Except.error.inj he
              exact .refused hsettles hinsert
          · split at h
            · cases (Prod.mk.inj h).1
            · next hrest =>
                obtain ⟨he, rfl⟩ := Prod.mk.inj h
                obtain rfl := Except.error.inj he
                exact .later hsettles (ih hrest)

/-- The sequence goes on after the turns of rows that are planned, each of which finds a key. -/
theorem Plans.follow (hc : t.primaryKey? = some c) {planned : List PlannedRow} {last : Planning}
    (h : Plans t (planningAt start used first) rows planned last) :
    last.keys = some (.sequence (nth start (first + total (turns start c used first rows)))) ∧
      ∀ turn ∈ turns start c used first rows, turn.key ≠ none := by
  generalize hp : planningAt start used first = p at h
  induction h generalizing used first with
  | nil =>
      subst hp
      exact ⟨rfl, by simp [turns]⟩
  | cons settles _ _ ih =>
      subst hp
      obtain ⟨served, used', htakes, rfl, hturns⟩ := settles.exists_takes hc
      obtain ⟨hkeys, hrest⟩ := ih rfl
      rw [hturns, Turn.total_append, ← Nat.add_assoc]
      exact ⟨hkeys, List.forall_mem_append.2 ⟨htakes.ne_none, hrest⟩⟩

/-- The sequence goes on after the turns of the rows that were reached, of which one finds no key exactly
if keys have run out. -/
theorem Stops.exists_reached (hc : t.primaryKey? = some c) {e : Error} {last : Planning}
    (h : Stops t (planningAt start used first) rows e last) :
    ∃ reached, reached <+: rows ∧
      last.keys = some (.sequence (nth start (first + total (turns start c used first reached)))) ∧
      (IsExhaustion e ↔ ∃ turn ∈ turns start c used first reached, turn.key = none) := by
  generalize hp : planningAt start used first = p at h
  -- By induction on the rows before the failure. The row that fails is the last that is reached; it
  -- has taken its turn in vain if its key could not be settled, and with a key if it was refused
  -- for its values.
  induction h generalizing used first with
  | @unsettled p next given givens e hsettled =>
      subst hp
      obtain ⟨hnone, hskips, rfl, rfl⟩ := skips_of_settleKey hc hsettled
      refine ⟨[given], ⟨givens, rfl⟩, ?_⟩
      rw [turns_of_exhausted hnone hskips]
      exact ⟨rfl, by simp [IsExhaustion]⟩
  | @refused p next given row key givens e settles hinsert =>
      subst hp
      obtain ⟨served, used', htakes, rfl, hturns⟩ := settles.exists_takes hc
      have hreached : turns start c used first [given] = served :=
        (hturns []).trans (List.append_nil served)
      have hexhaustion : ¬ IsExhaustion e :=
        failsWith_planInsert (fun _ h => by simp [IsExhaustion] at h) coversData_not_isExhaustion
          row e hinsert
      refine ⟨[given], ⟨givens, rfl⟩, by rw [hreached]; rfl, ?_⟩
      rw [hreached]
      exact iff_of_false hexhaustion fun ⟨turn, hturn, hnone⟩ => htakes.ne_none turn hturn hnone
  | @later p next last given row key givens e settles _ ih =>
      subst hp
      obtain ⟨served, used', htakes, rfl, hturns⟩ := settles.exists_takes hc
      obtain ⟨reached, hprefix, hkeys, hexhausted⟩ := ih rfl
      refine ⟨given :: reached, List.cons_prefix_cons.2 ⟨rfl, hprefix⟩, ?_, ?_⟩
      · rw [hturns, Turn.total_append, ← Nat.add_assoc]
        exact hkeys
      · rw [hturns, hexhausted]
        simp only [List.mem_append, or_and_right, exists_or]
        exact (or_iff_right fun ⟨turn, hturn, hnone⟩ => htakes.ne_none turn hturn hnone).symm

/-- Rows that are planned and added are created with the keys of their turns. -/
theorem Plans.exists_served (hc : t.primaryKey? = some c) {planned : List PlannedRow}
    {last : Planning} (h : Plans t (planningAt start used first) rows planned last)
    {db after : Database} {ids : List Value} (hadded : addRows planned db = (.ok ids, after)) :
    ∃ created : List CreatedRow, created.map CreatedRow.given = rows ∧
      created.map CreatedRow.id = ids ∧ t.Inserts db.store created after.store ∧
      List.Forall₂ (fun row turn => turn.row = row.given ∧ turn.key = some row.id ∧
          Assoc.find? row.values c.name = some row.id)
        (created.filter fun row => (suppliedKey? row.given c.name).isNone)
        (turns start c used first rows) := by
  generalize hp : planningAt start used first = p at h
  induction h generalizing used first db ids with
  | nil =>
      obtain ⟨hids, rfl⟩ := Prod.mk.inj hadded
      rw [← Except.ok.inj hids]
      exact ⟨[], rfl, rfl, .nil _, .nil⟩
  | @cons p next last given row key givens planned settles _ _ ih =>
      subst hp
      obtain ⟨served, used', htakes, rfl, hturns⟩ := settles.exists_takes hc
      obtain ⟨store, keys, hinsert, hrest, rfl⟩ := addRows_cons_eq_ok hadded
      obtain ⟨created, rfl, rfl, hinserts, hserved⟩ := ih hrest rfl
      refine ⟨⟨given, row, store.lastId, key.getD (.int store.lastId)⟩ :: created, rfl, rfl,
        .cons hinsert rfl hinserts, ?_⟩
      rw [hturns, List.filter_cons]
      cases htakes with
      | supplied hv =>
          have hbrought : (suppliedKey? given c.name).isNone = false := by simpa using hv
          simpa [hbrought] using hserved
      | served hnone hkey hrow =>
          subst hkey
          simpa [hnone, hrow] using hserved

/-! ## What draws no keys -/

/-- Whether an operation leaves the generator of keys as it is. -/
def KeepsKeys {α : Type} (operation : Operation α) : Prop :=
  ∀ db, (operation db).2.keys = db.keys

/-- What leaves the keys alone does so however it is scoped. -/
theorem KeepsKeys.within {α : Type} {body : Operation α} (h : KeepsKeys body) (scoping : Scoping) :
    KeepsKeys (within scoping body) := by
  intro db
  cases scoping with
  | joined => exact h db
  | own =>
      have hbody := h { db with inTransaction := true }
      show (transaction body db).2.keys = db.keys
      unfold transaction
      split
      · rfl
      · split <;> next heq => simpa [heq] using hbody

/-- Adding planned rows leaves the keys alone. -/
theorem keepsKeys_addRows (planned : List PlannedRow) : KeepsKeys (addRows planned) := by
  intro db
  induction planned generalizing db with
  | nil => rfl
  | cons row planned ih =>
      unfold addRows addRow
      cases db.store.insert row.statement with
      | error e => rfl
      | ok store =>
          have hrest := ih { db with store }
          dsimp only
          split <;> next heq => simpa [heq] using hrest

/-- Adding planned rows exhausts no keys. -/
theorem failsWith_within_addRows (scoping : Scoping) (planned : List PlannedRow) (db : Database) :
    (within scoping (addRows planned) db).1.FailsWith fun e => ¬ IsExhaustion e := by
  have hbody (db : Database) : (addRows planned db).1.FailsWith fun e => ¬ IsExhaustion e :=
    failsWith_addRows coversData_not_isExhaustion (fun _ h => by simp [IsExhaustion] at h) planned db
  cases hopen : db.inTransaction with
  | false => exact failsWith_within hbody fun _ => hopen
  | true =>
      cases scoping with
      | joined => exact hbody db
      | own =>
          show (transaction (addRows planned) db).1.FailsWith _
          rw [transaction, if_pos hopen]
          simp [IsExhaustion]

/-! ## Calls -/

/-- A call that creates rows in a table that has a key: the database that it finds, and the request. -/
structure Call where
  found : Database
  scoping : Scoping
  request : CreateRequest
  table : Table
  key : Column

namespace Call

/-- What a call does. -/
def does (call : Call) : Except Error (List Value) × Database :=
  create call.scoping call.request call.found

/-- Whether the table that a call is to has the key that it is said to have. -/
structure IsKeyed (call : Call) : Prop where
  table_eq : call.found.catalog.table call.request.table = .ok call.table
  key_eq : call.table.primaryKey? = some call.key

/-- Whether a row that was created lacked a key. -/
def lacked (call : Call) (row : CreatedRow) : Bool :=
  (suppliedKey? row.given call.key.name).isNone

/-- Whether turns are those of a call. -/
structure Serves (start : Int64) (first : Nat) (call : Call) (served : List Turn) : Prop where
  /-- The rows that are reached take their turns; no text of a key that the call brings along is
  given. -/
  reached : ∃ rows, rows <+: call.request.rows ∧
    served = turns start call.key (suppliedKeys call.table call.request.rows) first rows
  keys : call.does.2.keys = some (.sequence (nth start (first + total served)))
  exhausted : (∃ e, call.does.1 = .error e ∧ IsExhaustion e) ↔ ∃ turn ∈ served, turn.key = none
  /-- Without a key for every row nothing is inserted. -/
  unchanged : (∃ turn ∈ served, turn.key = none) →
    call.does.2 = { call.found with keys := call.does.2.keys }
  /-- The rows that lack a key are created with the keys of their turns. -/
  created : ∀ ids, call.does.1 = .ok ids → ∃ created : List CreatedRow,
    created.map CreatedRow.given = call.request.rows ∧ created.map CreatedRow.id = ids ∧
    call.table.Inserts call.found.store created call.does.2.store ∧
    List.Forall₂ (fun row turn => turn.row = row.given ∧ turn.key = some row.id ∧
      Assoc.find? row.values call.key.name = some row.id) (created.filter call.lacked) served

section Served

variable {call : Call} {p : Planning}

/-- A call whose rows cannot be planned fails, and what was drawn for them stays drawn. -/
theorem does_of_error {e : Error} (h : call.IsKeyed)
    (hplanned : planRows call.table ⟨suppliedKeys call.table call.request.rows, call.found.keys⟩
      call.request.rows = (.error e, p)) :
    call.does = (.error e, { call.found with keys := p.keys }) := by
  unfold does create
  rw [h.table_eq]
  dsimp only
  rw [hplanned]

/-- A call whose rows are planned adds them, and what was drawn for them stays drawn. -/
theorem does_of_planned {planned : List PlannedRow} (h : call.IsKeyed)
    (hplanned : planRows call.table ⟨suppliedKeys call.table call.request.rows, call.found.keys⟩
      call.request.rows = (.ok planned, p)) :
    call.does = within call.scoping (addRows planned) { call.found with keys := p.keys } := by
  unfold does create
  rw [h.table_eq]
  dsimp only
  rw [hplanned]

/-- **The rows of a call that lack a key take their turns.** -/
theorem exists_serves (h : call.IsKeyed)
    (hkeys : call.found.keys = some (.sequence (nth start first))) :
    ∃ served, call.Serves start first served ∧ Follow start first served := by
  have hc := h.key_eq
  have hplanning : ⟨suppliedKeys call.table call.request.rows, call.found.keys⟩
      = planningAt start (suppliedKeys call.table call.request.rows) first := by
    rw [hkeys]
    rfl
  cases hplanned : planRows call.table ⟨suppliedKeys call.table call.request.rows, call.found.keys⟩
      call.request.rows with
  | mk result p =>
      -- What cannot be planned has only drawn keys; what is planned is added with the keys it drew,
      -- and adding draws none.
      cases result with
      | error e =>
          have hdoes := does_of_error h hplanned
          rw [hplanning] at hplanned
          obtain ⟨reached, hprefix, hlast, hexhausted⟩ :=
            (stops_of_planRows hplanned).exists_reached hc
          refine ⟨_, ⟨⟨reached, hprefix, rfl⟩, ?_, ?_, fun _ => ?_, fun ids hids => ?_⟩, follow_turns⟩
          · rw [hdoes]
            exact hlast
          · rw [hdoes, ← hexhausted]
            simp
          · rw [hdoes]
          · rw [hdoes] at hids
            cases hids
      | ok planned =>
          have hdoes := does_of_planned h hplanned
          rw [hplanning] at hplanned
          have hplans := plans_of_planRows hplanned
          obtain ⟨hlast, hserved⟩ := hplans.follow hc
          have hnone : ¬ ∃ turn ∈ turns start call.key
              (suppliedKeys call.table call.request.rows) first call.request.rows, turn.key = none :=
            fun ⟨turn, hturn, hnone⟩ => hserved turn hturn hnone
          refine ⟨_, ⟨⟨_, List.prefix_refl _, rfl⟩, ?_, ?_, fun h => absurd h hnone, ?_⟩, follow_turns⟩
          · rw [hdoes]
            exact ((keepsKeys_addRows planned).within call.scoping _).trans hlast
          · rw [hdoes]
            exact iff_of_false (fun ⟨e, he, h⟩ => failsWith_within_addRows _ _ _ e he h) hnone
          · intro ids hids
            have hdone : within call.scoping (addRows planned) { call.found with keys := p.keys }
                = (.ok ids, call.does.2) := hdoes.symm.trans (Prod.ext hids rfl)
            obtain ⟨begun, last, hadded, -, hbegun, hafter, -⟩ := within_eq_ok hdone
            obtain ⟨created, hgivens, hcreated, hinserts, hall⟩ := hplans.exists_served hc hadded
            rw [hbegun, ← hafter] at hinserts
            exact ⟨created, hgivens, hcreated, hinserts, hall⟩

end Served

end Call

end Database

end Tabula
