import Tabula.Proofs.Database.Rollback
import Tabula.Report.Session

/-!
# What sessions do

A session decodes all requests of its text before it runs the first of them, and stops at the first
that fails. Main statement: whatever the text is, the session is refused and leaves the database as
it is, or runs all requests and reports each answer, or runs them up to one that fails and leaves
the tables as they are before that one (`Session.runs_all_or_stops`).
-/

namespace Tabula.Session

open Database (SameContents execute)

/-- The items of an array; any other JSON value is the only item of itself. -/
def items : Json → List Json
  | .array items => items
  | raw => [raw]

/-- Whether requests that are run in order, each in a transaction of its own, all succeed with
certain answers and lead from one database to another. -/
inductive Answered : List Request → Database → List Answer → Database → Prop
  | nil {db : Database} : Answered [] db [] db
  | cons {r : Request} {rs : List Request} {a : Answer} {answers : List Answer}
      {db next after : Database} (hfirst : execute .own r db = (.ok a, next))
      (hrest : Answered rs next answers after) : Answered (r :: rs) db (a :: answers) after

/-- What a session can come to, and what is left of the database then. -/
inductive Outcome (format : Format) (input : String) (db : Database) :
    Except SessionError (List String) × Database → Prop
  /-- The text is not JSON: nothing is run. -/
  | notJson {e : Json.SyntaxError} (hinput : Json.parse input = .error e) :
      Outcome format input db (.error (.invalidJson e), db)
  /-- An item is no request: nothing is run, whatever the items before it are. -/
  | rejected {raw item : Json} {before after : List Json} {e : Error}
      (hinput : Json.parse input = .ok raw) (hitems : items raw = before ++ item :: after)
      (hbefore : ∀ other ∈ before, ∃ r, Request.ofJson other = .ok r)
      (hitem : Request.ofJson item = .error e) :
      Outcome format input db (.error (.operation e), db)
  /-- All items are requests, and all of them succeed: each answer is reported. -/
  | finished {raw : Json} {rs : List Request} {answers : List Answer} {after : Database}
      (hinput : Json.parse input = .ok raw)
      (hrequests : List.Forall₂ (fun item r => Request.ofJson item = .ok r) (items raw) rs)
      (hanswers : Answered rs db answers after) :
      Outcome format input db (.ok (answers.map format.answer), after)
  /-- All items are requests, and one of them is the first to fail: the tables are as they are after
  those before it. -/
  | stopped {raw : Json} {r : Request} {before rest : List Request} {answers : List Answer}
      {reached after : Database} {e : Error} (hinput : Json.parse input = .ok raw)
      (hrequests : List.Forall₂ (fun item r => Request.ofJson item = .ok r) (items raw)
        (before ++ r :: rest))
      (hanswers : Answered before db answers reached)
      (hfails : (execute .own r reached).1 = .error e) (hafter : SameContents reached after) :
      Outcome format input db (.error (.operation e), after)

/-- The requests of a text are those of its items, in order. -/
theorem requests_eq {input : String} {raw : Json} (h : Json.parse input = .ok raw) :
    requests input = ((items raw).mapM Request.ofJson).mapError .operation := by
  have hsingle := Except.mapM_singleton Request.ofJson raw
  unfold requests
  rw [h]
  cases raw with
  | array items => rfl
  | _ => exact (congrArg (Except.mapError SessionError.operation) hsingle).symm

/-- Requests that are run in order all succeed, or stop at the first that fails. -/
theorem runAll_cases (format : Format) (rs : List Request) (db : Database) :
    (∃ answers after, Answered rs db answers after ∧
      runAll format rs db = (.ok (answers.map format.answer), after)) ∨
    ∃ before r rest answers reached after e, rs = before ++ r :: rest ∧
      Answered before db answers reached ∧ (execute .own r reached).1 = .error e ∧
      SameContents reached after ∧ runAll format rs db = (.error e, after) := by
  induction rs generalizing db with
  | nil => exact .inl ⟨[], db, .nil, rfl⟩
  | cons r rs ih =>
    rw [runAll]
    cases hr : execute .own r db with
    | mk result next =>
      cases result with
      | error e =>
        have hfails : (execute .own r db).1 = .error e := by rw [hr]
        have hkept := Database.isAtomic_execute r db e hfails
        rw [hr] at hkept
        exact .inr ⟨[], r, rs, [], db, next, e, rfl, .nil, hfails, hkept, rfl⟩
      | ok a =>
        dsimp only
        rcases ih next with ⟨answers, after, hanswers, hrun⟩ |
          ⟨before, failed, rest, answers, reached, after, e, rfl, hanswers, hfails, hkept, hrun⟩
        · rw [hrun]
          exact .inl ⟨a :: answers, after, .cons hr hanswers, rfl⟩
        · rw [hrun]
          exact .inr ⟨r :: before, failed, rest, a :: answers, reached, after, e, rfl,
            .cons hr hanswers, hfails, hkept, rfl⟩

theorem run_of_parse_error {input : String} {e : Json.SyntaxError}
    (h : Json.parse input = .error e) (format : Format) (db : Database) :
    run format input db = (.error (.invalidJson e), db) := by
  have hrequests : requests input = .error (.invalidJson e) := by
    unfold requests
    rw [h]
    rfl
  rw [run, hrequests]

/-- What a run comes to. -/
theorem outcome_run (format : Format) (input : String) (db : Database) :
    Outcome format input db (run format input db) := by
  cases hinput : Json.parse input with
  | error e =>
    rw [run_of_parse_error hinput]
    exact .notJson hinput
  | ok raw =>
    have hrequests := requests_eq hinput
    cases hdecoded : (items raw).mapM Request.ofJson with
    | error e =>
      obtain ⟨before, item, after, hitems, hbefore, hitem⟩ :=
        Except.exists_of_mapM_eq_error hdecoded
      rw [run, hrequests, hdecoded]
      exact .rejected hinput hitems hbefore hitem
    | ok rs =>
      have hall := Except.mapM_eq_ok_iff.1 hdecoded
      rw [run, hrequests, hdecoded]
      rcases runAll_cases format rs db with ⟨answers, after, hanswers, hrun⟩ |
        ⟨before, r, rest, answers, reached, after, e, rfl, hanswers, hfails, hkept, hrun⟩
      · show Outcome format input db (Except.mapError _ (runAll format rs db).1, _)
        rw [hrun]
        exact .finished hinput hall hanswers
      · show Outcome format input db (Except.mapError _ (runAll format _ db).1, _)
        rw [hrun]
        exact .stopped hinput hall hanswers hfails hkept

/-- An item that is no request stops a session before anything is run. -/
theorem Outcome.of_rejected {format : Format} {input : String} {db : Database}
    {result : Except SessionError (List String) × Database} (h : Outcome format input db result)
    {raw item : Json} {e : Error} (hinput : Json.parse input = .ok raw) (hitem : item ∈ items raw)
    (hrejected : Request.ofJson item = .error e) : ∃ e', result = (.error (.operation e'), db) := by
  have hnot {rs : List Request}
      (hall : List.Forall₂ (fun item r => Request.ofJson item = .ok r) (items raw) rs) : False := by
    obtain ⟨r, -, hr⟩ := hall.exists_of_mem_left hitem
    rw [hrejected] at hr
    cases hr
  cases h with
  | notJson hinput' => cases hinput.symm.trans hinput'
  | rejected => exact ⟨_, rfl⟩
  | finished hinput' hrequests =>
    obtain rfl := Except.ok.inj (hinput.symm.trans hinput')
    exact (hnot hrequests).elim
  | stopped hinput' hrequests =>
    obtain rfl := Except.ok.inj (hinput.symm.trans hinput')
    exact (hnot hrequests).elim

/-- **A session runs all its requests, or those before the first that fails.** If its text is not
JSON, or has an item that is no request wherever it stands, then none is run. -/
theorem runs_all_or_stops (format : Format) (input : String) (db : Database) :
    Outcome format input db (run format input db) ∧
      (∀ e, Json.parse input = .error e → run format input db = (.error (.invalidJson e), db)) ∧
      ∀ raw item e, Json.parse input = .ok raw → item ∈ items raw →
        Request.ofJson item = .error e →
          ∃ e', run format input db = (.error (.operation e'), db) := by
  have houtcome := outcome_run format input db
  exact ⟨houtcome, fun e he => run_of_parse_error he format db,
    fun raw item e => houtcome.of_rejected⟩

/-- A text that ends early, and one with a number for a request. -/
theorem runs_all_or_stops_refused :
    (∃ e, Json.parse "[" = .error e ∧
      run .table "[" Database.sample = (.error (.invalidJson e), Database.sample)) ∧
    Json.parse "[[], 7]" = .ok (.array [.array [], .int 7]) ∧
      Request.ofJson (.int 7) = .error (.request .notMapping) ∧
      ∃ e, run .json "[[], 7]" Database.sample = (.error (.operation e), Database.sample) := by
  have hinput : Json.parse "[[], 7]" = .ok (.array [.array [], .int 7]) := by
    with_unfolding_all rfl
  have hseven : Request.ofJson (.int 7) = .error (.request .notMapping) := by rfl
  refine ⟨?_, hinput, hseven, ?_⟩
  · cases he : Json.parse "[" with
    | error e => exact ⟨e, rfl, (runs_all_or_stops .table "[" Database.sample).2.1 e he⟩
    | ok raw =>
      have hisOk : (Json.parse "[").isOk = false := by decide +kernel
      rw [he] at hisOk
      cases hisOk
  · have hmem : .int 7 ∈ items (.array [.array [], .int 7]) := .tail _ (.head _)
    exact (runs_all_or_stops .json _ Database.sample).2.2 _ _ _ hinput hmem hseven

end Tabula.Session
