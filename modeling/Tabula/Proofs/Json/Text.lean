import Tabula.Proofs.Json.Lexeme
import Tabula.Proofs.Json.Reordered

/-!
# Texts of JSON values

What is written of a JSON value is cut into the lexemes of the value, whatever its layout, and from these
the scanner puts the value together again. Floats are read with two roundings, so that not every float is
read from its text; and containers can be nested only so deep. Main statement: a value with neither
fault, the fields of its objects in key order, is read back from its indented text (`parse_indented`).
-/

namespace Tabula.Json

/-- Whether a value can be read from its text: its whole numbers fit, its floats are read as they are,
and it is nested no deeper than `depth`. -/
inductive IsExpressible : Nat → Json → Prop
  | null {depth : Nat} : IsExpressible depth .null
  | bool {depth : Nat} (b : Bool) : IsExpressible depth (.bool b)
  | int {depth : Nat} {n : Int} (hlow : -2 ^ 63 ≤ n) (hhigh : n < 2 ^ 64) : IsExpressible depth (.int n)
  | float {depth : Nat} {x : Float} (h : parse (floatText x) = .ok (.float x)) :
      IsExpressible depth (.float x)
  | string {depth : Nat} (s : String) : IsExpressible depth (.string s)
  | array {depth : Nat} {items : List Json} (hitems : ∀ item ∈ items, IsExpressible depth item) :
      IsExpressible (depth + 1) (.array items)
  | object {depth : Nat} {fields : List (String × Json)}
      (hfields : ∀ field ∈ fields, IsExpressible depth field.2) :
      IsExpressible (depth + 1) (.object fields)

mutual

/-- The lexemes of a value. -/
def lexemes : Json → List Lexeme
  | null => [.null]
  | bool b => [.bool b]
  | int n => [.number (.ok (.int n))]
  | float x => [.number (.ok (.float x))]
  | string s => [.text (.ok s)]
  | array items => .openArray :: ([.comma].intercalate (itemsLexemes items) ++ [.closeArray])
  | object fields => .openObject :: ([.comma].intercalate (fieldsLexemes fields) ++ [.closeObject])

/-- The lexemes of each item. -/
def itemsLexemes : List Json → List (List Lexeme)
  | [] => []
  | item :: items => lexemes item :: itemsLexemes items

/-- The lexemes of each field. -/
def fieldsLexemes : List (String × Json) → List (List Lexeme)
  | [] => []
  | (name, item) :: fields => (.text (.ok name) :: .colon :: lexemes item) :: fieldsLexemes fields

end

/-! ## Cutting the text of a value -/

namespace Lexeme

/-- A text that begins like a numeral and is read as a value is one lexeme. -/
theorem all_eq_of_parse {text : String} {c : Char} {cs : List Char} {j : Json}
    (htext : text.toList = c :: cs) (hc : c = '-' ∨ c.isDigit = true) (h : parse text = .ok j) :
    all text.toList = [.number (.ok j)] := by
  unfold parse Document.scan at h
  rw [htext, all_cons (isBlank_of_numeral hc)] at h ⊢
  rcases ofChar_of_numeral hc cs with ⟨v, hv⟩ | ⟨fault, hfault⟩
  · rw [hv] at h ⊢
    cases v with
    | error e => cases h
    | ok value =>
        cases hrest : all (cs.drop (ofChar c cs).2) with
        | nil =>
            rw [hrest] at h
            cases h
            rfl
        | cons l ls =>
            rw [hrest] at h
            cases h
  · rw [hfault] at h
    cases h

/-- The lexeme of a float that is read from its text. -/
theorem CutsInto.float {x : Float} (h : parse (floatText x) = .ok (.float x)) :
    CutsInto (floatText x) [.number (.ok (.float x))] := by
  have hfinite : x.isFinite = true := by
    by_contra hinfinite
    rw [floatText, if_neg hinfinite] at h
    have hnull : parse "null" = .ok .null := by with_unfolding_all rfl
    rw [hnull] at h
    cases h
  rw [floatText, if_pos hfinite] at h ⊢
  obtain ⟨b, hb⟩ := Decimal.Binary.isFinite_iff.1 hfinite
  obtain ⟨s, hproper, htext, -⟩ := numberLayout.exists_spelling_text hb
  obtain ⟨c, cs, hchars, hc⟩ := s.exists_cons_chars hproper
  have hlist : (numberLayout.text x).toList = s.chars := by rw [htext, String.toList_ofList]
  refine .number (hlist.trans hchars) hc (fun d hd => ?_) (all_eq_of_parse (hlist.trans hchars) hc h)
  rcases s.mem_chars hproper (hlist ▸ hd) with hdigit | rfl | rfl | rfl | rfl
  · exact isBlank_of_numeral (.inr hdigit)
  all_goals rfl

/-- Texts between commas are cut into their lexemes between commas. -/
theorem CutsInto.intercalate {entries : List String} {rows : List (List Lexeme)}
    (h : List.Forall₂ CutsInto entries rows) :
    CutsInto (",".intercalate entries) ([.comma].intercalate rows) := by
  have hcomma : AlwaysCutsInto "," [.comma] := fun rest => all_cons rfl rest
  induction h with
  | nil => exact (AlwaysCutsInto.blank (by simp)).cutsInto
  | @cons entry row entries rows hentry hrest ih =>
      cases hrest with
      | nil => simpa using hentry
      | cons hnext hrest =>
          rw [String.intercalate_cons_cons, List.intercalate_cons_cons, String.append_assoc,
            List.append_assoc]
          refine hentry.append (hcomma.append ih) ?_
          rw [String.toList_append]
          exact fun c hc => Option.mem_some_iff.1 hc ▸ rfl

/-- A line break is cut into nothing. -/
theorem AlwaysCutsInto.lineBreak (level : Nat) : AlwaysCutsInto (Json.lineBreak level) [] := by
  refine .blank fun c hc => ?_
  rw [Json.lineBreak, String.toList_append, List.mem_append] at hc
  rcases hc with hc | hc
  · obtain rfl : c = '\n' := List.mem_singleton.1 hc
    rfl
  · rw [String.toList_ofList] at hc
    obtain rfl : c = ' ' := List.eq_of_mem_replicate hc
    rfl

/-- Entries on lines of their own are cut into those of each, with commas between them. -/
theorem CutsInto.block {opening closing : String} {first last : Lexeme} {entries : List String}
    {rows : List (List Lexeme)} (hopening : AlwaysCutsInto opening [first])
    (hclosing : AlwaysCutsInto closing [last]) (level : Nat) (h : List.Forall₂ CutsInto entries rows) :
    CutsInto (Json.block opening closing level entries)
      (first :: ([.comma].intercalate rows ++ [last])) := by
  unfold Json.block
  cases h with
  | nil => exact hopening.append hclosing.cutsInto
  | @cons entry row entries rows hentry hentries =>
      have hlines : List.Forall₂ CutsInto
          ((entry :: entries).map (Json.lineBreak (level + 1) ++ ·)) (row :: rows) := by
        rw [List.forall₂_map_left_iff]
        exact (List.Forall₂.cons hentry hentries).imp fun _ _ hline =>
          (AlwaysCutsInto.lineBreak _).append hline
      have hend := (AlwaysCutsInto.lineBreak level).append hclosing.cutsInto
      have hbody := (CutsInto.intercalate hlines).append hend (by
        rw [Json.lineBreak, String.toList_append, String.toList_append]
        exact fun c hc => Option.mem_some_iff.1 hc ▸ rfl)
      have hall := hopening.append hbody
      simpa [String.append_assoc] using hall

end Lexeme

/-- Items are indented one by one. -/
theorem indentedItems_eq_map (level : Nat) (items : List Json) :
    indentedItems level items = items.map (indentedAt level) := by
  induction items with
  | nil => rfl
  | cons item items ih => rw [indentedItems, ih, List.map_cons]

/-- So are fields, after their names. -/
theorem indentedFields_eq_map (level : Nat) (fields : List (String × Json)) :
    indentedFields level fields
      = fields.map fun field => quote field.1 ++ ": " ++ indentedAt level field.2 := by
  induction fields with
  | nil => rfl
  | cons field fields ih => rw [indentedFields, ih, List.map_cons]

/-- The lexemes of items are those of each. -/
theorem itemsLexemes_eq_map (items : List Json) : itemsLexemes items = items.map lexemes := by
  induction items with
  | nil => rfl
  | cons item items ih => rw [itemsLexemes, ih, List.map_cons]

/-- So are those of fields, after their names. -/
theorem fieldsLexemes_eq_map (fields : List (String × Json)) :
    fieldsLexemes fields
      = fields.map fun field => .text (.ok field.1) :: .colon :: lexemes field.2 := by
  induction fields with
  | nil => rfl
  | cons field fields ih => rw [fieldsLexemes, ih, List.map_cons]

open Lexeme

/-- The text of a field is cut into its name, a colon and the lexemes of its value. -/
theorem cutsInto_field (name : String) {text : String} {ls : List Lexeme} (h : CutsInto text ls) :
    CutsInto (quote name ++ ": " ++ text) (.text (.ok name) :: .colon :: ls) := by
  have hcolon : AlwaysCutsInto ": " [.colon] := fun rest => by
    show all (':' :: ' ' :: rest) = _
    rw [all_cons rfl]
    show _ :: all (' ' :: rest) = _
    rw [all_blank rfl]
    rfl
  rw [String.append_assoc]
  exact (AlwaysCutsInto.quote name).append (hcolon.append h)

/-- The indented text of a value is cut into the lexemes of the value. -/
theorem cutsInto_indentedAt {depth : Nat} {j : Json} (h : j.IsExpressible depth) (level : Nat) :
    CutsInto (indentedAt level j) j.lexemes := by
  induction h generalizing level with
  | null =>
      have hnull : AlwaysCutsInto "null" [.null] := fun rest =>
        all_cons (c := 'n') rfl ('u' :: 'l' :: 'l' :: rest)
      exact hnull.cutsInto
  | bool b =>
      have hfalse : AlwaysCutsInto "false" [.bool false] := fun rest =>
        all_cons (c := 'f') rfl ('a' :: 'l' :: 's' :: 'e' :: rest)
      have htrue : AlwaysCutsInto "true" [.bool true] := fun rest =>
        all_cons (c := 't') rfl ('r' :: 'u' :: 'e' :: rest)
      cases b with
      | false => exact hfalse.cutsInto
      | true => exact htrue.cutsInto
  | int hlow hhigh => exact .int hlow hhigh
  | float h => exact .float h
  | string s => exact (AlwaysCutsInto.quote s).cutsInto
  | @array _ items _ ih =>
      have hopen : AlwaysCutsInto "[" [.openArray] := fun rest => all_cons rfl rest
      have hclose : AlwaysCutsInto "]" [.closeArray] := fun rest => all_cons rfl rest
      rw [indentedAt, lexemes, indentedItems_eq_map, itemsLexemes_eq_map]
      refine .block hopen hclose level ?_
      rw [List.forall₂_map_left_iff, List.forall₂_map_right_iff]
      exact List.forall₂_same.2 fun item hitem => ih item hitem _
  | @object _ fields _ ih =>
      have hopen : AlwaysCutsInto "\x7b" [.openObject] := fun rest => all_cons rfl rest
      have hclose : AlwaysCutsInto "\x7d" [.closeObject] := fun rest => all_cons rfl rest
      rw [indentedAt, lexemes, indentedFields_eq_map, fieldsLexemes_eq_map]
      refine .block hopen hclose level ?_
      rw [List.forall₂_map_left_iff, List.forall₂_map_right_iff]
      exact List.forall₂_same.2 fun field hfield => cutsInto_field field.1 (ih field hfield _)

/-! ## Putting a value together -/

namespace Document

/-- Whether a value may stand where a text has to go on. -/
def Expecting.TakesValue : Expecting → Prop
  | .value | .firstItem | .nextItem => True
  | _ => False

/-- What comes of a text after a value inside of open containers. -/
def proceed (value : Document) (frames : List Frame) (ls : List Lexeme) : Scan :=
  match frames with
  | [] => ⟨value, !ls.isEmpty⟩
  | .array items :: frames => run (.array (value :: items) :: frames) .afterItem ls
  | .object fields key :: frames =>
    run (.object ((key.getD (.ok ""), value) :: fields) none :: frames) .afterField ls

variable {frames : List Frame} {want : Expecting} {l : Lexeme} {ls : List Lexeme} {depth : Nat}

/-- A run goes on from its first step. -/
theorem run_of_step {frames' : List Frame} {want' : Expecting} (h : step frames want l = .go frames' want')
    (ls : List Lexeme) : run frames want (l :: ls) = run frames' want' ls := by
  rw [run, h]

/-- A value that ends is put in its place. -/
theorem run_of_place {value : Document} {outer : List Frame} (h : step frames want l = place value outer)
    (ls : List Lexeme) : run frames want (l :: ls) = proceed value outer ls := by
  rw [run, h]
  cases outer with
  | nil => rfl
  | cons frame outer => cases frame <;> rfl

/-- Where a value may stand, a lexeme begins one. -/
theorem step_of_takesValue (hwant : want.TakesValue) (hl : l ≠ .closeArray) :
    step frames want l = startValue frames l := by
  cases want with
  | value => rfl
  | firstItem | nextItem => cases l <;> first | rfl | exact absurd rfl hl
  | _ => cases hwant

/-- A container is one up to the greatest depth. -/
theorem atDepth_of_le {n : Nat} (h : n ≤ maxDepth) (container : Document) :
    atDepth n container = container :=
  if_neg (by omega)

/-- Whether the lexemes of a value, inside of open containers, are put together to the value. -/
def Assembles (depth : Nat) (j : Json) : Prop :=
  ∀ frames want ls, frames.length + depth ≤ maxDepth → want.TakesValue →
    run frames want (j.lexemes ++ ls) = proceed (ofJson j) frames ls

/-- The items of an array that is open are put together one by one. -/
theorem run_items {items : List Json} (hne : items ≠ [])
    (h : ∀ item ∈ items, Assembles depth item) (acc : List Document) {outer : List Frame}
    (hdepth : outer.length + 1 + depth ≤ maxDepth) (hwant : want.TakesValue) (ls : List Lexeme) :
    run (.array acc :: outer) want
        ([.comma].intercalate (items.map lexemes) ++ .closeArray :: ls)
      = proceed (.array (acc.reverse ++ items.map ofJson)) outer ls := by
  induction items generalizing acc want with
  | nil => exact absurd rfl hne
  | cons item items ih =>
      obtain ⟨hitem, hitems⟩ := List.forall_mem_cons.1 h
      have hfirst (ls : List Lexeme) : run (.array acc :: outer) want (item.lexemes ++ ls)
          = run (.array (ofJson item :: acc) :: outer) .afterItem ls :=
        hitem (.array acc :: outer) want ls hdepth hwant
      cases items with
      | nil =>
          have hclose : step (.array (ofJson item :: acc) :: outer) .afterItem .closeArray
              = place (.array (acc.reverse ++ [ofJson item])) outer := by
            show place (atDepth (outer.length + 1) (.array (ofJson item :: acc).reverse)) outer = _
            rw [atDepth_of_le (by omega), List.reverse_cons]
          have hrow : [Lexeme.comma].intercalate ([item].map lexemes) = item.lexemes := by
            simp
          rw [hrow, hfirst]
          exact run_of_place hclose ls
      | cons next items =>
          have hrest := ih (List.cons_ne_nil next items) hitems (ofJson item :: acc)
            (show Expecting.TakesValue .nextItem from trivial)
          rw [List.map_cons, List.map_cons, List.intercalate_cons_cons, List.append_assoc,
            List.append_assoc, hfirst]
          refine (run_of_step rfl _).trans (hrest.trans ?_)
          simp

/-- The fields of an object that is open are put together one by one. -/
theorem run_fields {fields : List (String × Json)} (hne : fields ≠ [])
    (h : ∀ field ∈ fields, Assembles depth field.2)
    (acc : List (Except SyntaxError String × Document)) {outer : List Frame}
    (hdepth : outer.length + 1 + depth ≤ maxDepth) (hwant : want = .firstKey ∨ want = .nextKey)
    (ls : List Lexeme) :
    run (.object acc none :: outer) want
        ([.comma].intercalate
          (fields.map fun field => .text (.ok field.1) :: .colon :: lexemes field.2)
            ++ .closeObject :: ls)
      = proceed (.object (acc.reverse ++ fields.map fun field => (.ok field.1, ofJson field.2))) outer
          ls := by
  induction fields generalizing acc want with
  | nil => exact absurd rfl hne
  | cons field fields ih =>
      obtain ⟨name, item⟩ := field
      obtain ⟨hitem, hitems⟩ := List.forall_mem_cons.1 h
      -- A key, a colon and a value take the machine to where a field has just ended.
      have hfirst (ls : List Lexeme) :
          run (.object acc none :: outer) want (.text (.ok name) :: .colon :: (item.lexemes ++ ls))
            = run (.object ((.ok name, ofJson item) :: acc) none :: outer) .afterField ls := by
        have hkey : step (.object acc none :: outer) want (.text (.ok name))
            = .go (.object acc (some (.ok name)) :: outer) .colon := by
          rcases hwant with rfl | rfl <;> rfl
        exact (run_of_step hkey _).trans ((run_of_step rfl _).trans
          (hitem (.object acc (some (.ok name)) :: outer) .value ls hdepth trivial))
      cases fields with
      | nil =>
          have hclose : step (.object ((.ok name, ofJson item) :: acc) none :: outer) .afterField
              .closeObject = place (.object (acc.reverse ++ [(.ok name, ofJson item)])) outer := by
            show place (atDepth (outer.length + 1)
              (.object ((.ok name, ofJson item) :: acc).reverse)) outer = _
            rw [atDepth_of_le (by omega), List.reverse_cons]
          rw [List.map_singleton, List.intercalate_singleton, List.cons_append, List.cons_append, hfirst]
          exact run_of_place hclose ls
      | cons next fields =>
          have hrest := ih (List.cons_ne_nil next fields) hitems ((.ok name, ofJson item) :: acc)
            (.inr rfl)
          rw [List.map_cons, List.map_cons, List.intercalate_cons_cons, List.append_assoc,
            List.append_assoc, List.cons_append, List.cons_append, hfirst]
          refine (run_of_step rfl _).trans (hrest.trans ?_)
          simp

/-- The lexemes of a value are put together to the value. -/
theorem assembles {j : Json} (h : j.IsExpressible depth) : Assembles depth j := by
  -- By induction on the value: its opening bracket puts a container on the stack, the parts are
  -- assembled in it, and the closing bracket takes it off again.
  induction h with
  | null | bool | int | float | string =>
      intro frames want ls _ hwant
      exact run_of_place (step_of_takesValue hwant (by nofun)) ls
  | @array depth items _ ih =>
      intro frames want ls hdepth hwant
      rw [lexemes, itemsLexemes_eq_map, ofJson, itemsOfJson_eq_map, List.cons_append, List.append_assoc]
      refine (run_of_step (step_of_takesValue hwant (by nofun)) _).trans ?_
      by_cases hne : items = []
      · subst hne
        have hclose : step (.array [] :: frames) .firstItem .closeArray = place (.array []) frames :=
          congrArg (place · frames) (atDepth_of_le (n := frames.length + 1) (by omega) _)
        exact run_of_place hclose ls
      · exact run_items hne ih [] (by omega) (show Expecting.TakesValue .firstItem from trivial) ls
  | @object depth fields _ ih =>
      intro frames want ls hdepth hwant
      rw [lexemes, fieldsLexemes_eq_map, ofJson, fieldsOfJson_eq_map, List.cons_append,
        List.append_assoc]
      refine (run_of_step (step_of_takesValue hwant (by nofun)) _).trans ?_
      by_cases hne : fields = []
      · subst hne
        have hclose : step (.object [] none :: frames) .firstKey .closeObject
            = place (.object []) frames :=
          congrArg (place · frames) (atDepth_of_le (n := frames.length + 1) (by omega) _)
        exact run_of_place hclose ls
      · exact run_fields hne ih [] (by omega) (.inl rfl) ls

/-- A text that is cut into the lexemes of a value is scanned as the value. -/
theorem scan_of_cutsInto {text : String} {j : Json} (hj : j.IsExpressible maxDepth)
    (h : Lexeme.CutsInto text j.lexemes) : scan text = ⟨ofJson j, false⟩ := by
  have hall : Lexeme.all text.toList = j.lexemes := by
    have hcut := h [] nofun
    rwa [List.append_nil, Lexeme.all, List.append_nil] at hcut
  have hrun := assembles hj [] .value [] (by simp) trivial
  rw [List.append_nil] at hrun
  rw [scan, hall, hrun]
  rfl

end Document

/-- **A value is read back from its indented text.** -/
theorem parse_indented {j : Json} (hj : j.IsExpressible Document.maxDepth) (hordered : j.IsOrdered) :
    parse j.indented = .ok j := by
  have hscan : Document.scan j.indented = ⟨.ofJson j, false⟩ :=
    Document.scan_of_cutsInto hj (cutsInto_indentedAt hj 0)
  rw [parse, hscan, Document.toJson_ofJson hordered]
  rfl

/-- Any order of fields can be read if one can. -/
theorem IsExpressible.reorders {depth : Nat} {j k : Json} (h : j.IsExpressible depth)
    (hk : j.Reorders k) : k.IsExpressible depth := by
  induction h generalizing k with
  | null =>
      cases hk
      exact .null
  | bool b =>
      cases hk
      exact .bool b
  | int hlow hhigh =>
      cases hk
      exact .int hlow hhigh
  | float h =>
      cases hk
      exact .float h
  | string s =>
      cases hk
      exact .string s
  | array _ ih =>
      obtain ⟨items', rfl, hitems⟩ := hk.exists_array
      refine .array fun item' hitem' => ?_
      obtain ⟨item, hitem, hreorders⟩ := hitems.exists_of_mem_right hitem'
      exact ih item hitem hreorders
  | object hfields ih =>
      cases hk with
      | refl => exact .object hfields
      | object _ hitems hperm =>
          refine .object fun field' hfield' => ?_
          obtain ⟨item, hitem, hreorders⟩ :=
            hitems.exists_of_mem_right (List.mem_map_of_mem (hperm.mem_iff.1 hfield'))
          obtain ⟨field, hfield, rfl⟩ := List.mem_map.1 hitem
          exact ih field hfield hreorders

/-- The indented text of a value holds the value, with its fields in any order. -/
theorem IsExpressible.isWrittenAs {j k : Json} (h : j.IsExpressible Document.maxDepth)
    (hk : j.Reorders k) : j.IsWrittenAs k.indented :=
  ⟨k, hk, Document.scan_of_cutsInto (h.reorders hk) (cutsInto_indentedAt (h.reorders hk) 0)⟩

end Tabula.Json
