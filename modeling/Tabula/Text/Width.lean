import Tabula.Text.Emoji

/-!
# Display width

How many columns of a terminal a line of text takes. Most characters take the same number wherever
they stand: none for marks, two for the wide characters of East Asian scripts and for pictures, one
for all others. Some depend on what follows them: pictures that are joined into one, signs with a
selector that makes them pictures, and letters that form a ligature. A line is therefore measured
from its end, and what has been passed is remembered as far as it matters (`Context`).
-/

namespace Tabula.Text

/-! ## What follows a character -/

/-- A letter that may form a ligature with what stands before it. -/
inductive Ligature where
  | alef
  | lamed
  | ya
  /-- The vowel sign and the joiner before `ya`. -/
  | vowelAndYa
  | consonant
  /-- The sign before a consonant that joins it to the one before. -/
  | joinerAndConsonant
  | tone
  | orkhonI
  | subscriptable
  | vowelE
  | vowelAi
  deriving DecidableEq, Repr

/-- What follows a character. -/
inductive Following where
  | other
  | lineFeed
  /-- A modifier of skin colour. -/
  | modifier
  /-- Half a flag. -/
  | half
  /-- Several halves of flags. -/
  | halves
  | picture
  /-- A joiner and a picture, maybe with a key cap before them. -/
  | joined (keycap : Bool)
  /-- Halves of flags before a joiner and a picture: one, an even number, or an odd number. -/
  | joinedHalf
  | joinedEven
  | joinedOdd
  /-- Tags up to their end mark, before a joiner and a picture: some letters after some digits. -/
  | tags (letters digits : Nat)
  /-- A letter, maybe after a joiner. -/
  | letter (l : Ligature) (joined : Bool)
  deriving DecidableEq, Repr

/-- A character that chooses how the character before it is drawn. -/
inductive Selector where
  | plain
  | picture
  deriving DecidableEq, Repr

/-- What follows a character, with a selector in front if there is one. -/
structure Context where
  following : Following
  selector : Option Selector := none
  deriving DecidableEq, Repr

namespace Context

/-- Nothing that matters follows. -/
def none : Context := { following := .other }

/-- Puts the selector of pictures in front. What follows is remembered only where it can still
matter. -/
def selectPicture (x : Context) : Context :=
  match x.following with
  | .letter .. | .joined _ => { x with selector := some .picture }
  | _ => { following := .other, selector := some .picture }

/-- Puts the selector of plain signs in front. -/
def selectPlain (x : Context) : Context :=
  match x.following with
  | .letter .. => { x with selector := some .plain }
  | _ => { following := .other, selector := some .plain }

/-- The context if a selector turns out to have nothing to select. -/
def unselect (x : Context) : Context :=
  match x.following with
  | .letter .. => { x with selector := Option.none }
  | _ => none

end Context

/-! ## Widths of single characters -/

/-- Whether a character lies between two code points. -/
def between (low high : Nat) (c : Char) : Bool := low ≤ c.toNat && c.toNat ≤ high

/-- The alefs that form a ligature with a lam before them. -/
def alefs : Ranges :=
  [(0x622, 0x623), (0x625, 0x625), (0x627, 0x627), (0x671, 0x673), (0x675, 0x675), (0x773, 0x774),
   (0x870, 0x882)]

/-- The lams. -/
def lams : Ranges :=
  [(0x644, 0x644), (0x6b5, 0x6b8), (0x76a, 0x76a), (0x8a6, 0x8a6), (0x8c7, 0x8c7)]

/-- The letters whose subscript form takes no column. -/
def subscriptables : Ranges :=
  [(0x1780, 0x1782), (0x1784, 0x1787), (0x1789, 0x178c), (0x178e, 0x1793), (0x1795, 0x1798),
   (0x179b, 0x179d), (0x17a0, 0x17a0), (0x17a2, 0x17a2), (0x17a7, 0x17a7), (0x17ab, 0x17ac),
   (0x17af, 0x17af)]

/-- The consonants that can be joined in pairs. -/
def pairedConsonants : Ranges := [(0x2d31, 0x2d65), (0x2d6f, 0x2d6f)]

/-- Whether a character is half a flag. -/
def isHalf (c : Char) : Bool := between 0x1f1e6 0x1f1ff c

/-- Whether a character is a modifier of skin colour. -/
def isModifier (c : Char) : Bool := between 0x1f3fb 0x1f3ff c

/-- The ligature letter that a character is. -/
def ligature? (c : Char) : Option Ligature :=
  match c.toNat with
  | 0x5dc => some .lamed
  | 0x1a10 => some .ya
  | 0xa4fc | 0xa4fd => some .tone
  | 0x10c03 => some .orkhonI
  | 0x16d67 => some .vowelE
  | 0x16d68 => some .vowelAi
  | _ =>
    if alefs.holds c then some .alef
    else if subscriptables.holds c then some .subscriptable
    else if pairedConsonants.holds c then some .consonant
    else none

/-- The columns that a character takes where nothing else matters. -/
def charWidth (c : Char) : Nat :=
  if c.toNat ≤ 0xa0 then 1
  else if c.toNat = 0x17d8 then 3
  else if zeroWidth.holds c then 0
  else if doubleWidth.holds c then 2
  else 1

/-- What a character is to the one before it. -/
def contextOf (c : Char) : Context :=
  if c = '\n' then { following := .lineFeed }
  else if c.toNat ≤ 0xa0 then .none
  else if c.toNat = 0xfe0e then Context.none.selectPlain
  else if c.toNat = 0xfe0f then Context.none.selectPicture
  else if isHalf c then { following := .half }
  else if isModifier c then { following := .modifier }
  else if pictures.holds c then { following := .picture }
  else
    match ligature? c with
    | some l => { following := .letter l false }
    | none => .none

/-! ## Widths that depend on what follows -/

/-- What a character before a ligature letter adds and is followed by, if it forms part of the
ligature. -/
def beforeLigature? (c : Char) : Ligature → Bool → Option (Int × Context)
  | .alef, _ =>
    if lams.holds c then some (0, .none)
    else if isTransparent c then some (0, { following := .letter .alef false })
    else none
  | .lamed, true => if c.toNat = 0x5d0 then some (0, .none) else none
  | .subscriptable, _ => if c.toNat = 0x17d2 then some (-1, .none) else none
  | .ya, true =>
    if c.toNat = 0x1a17 then some (0, { following := .letter .vowelAndYa true }) else none
  | .vowelAndYa, _ => if c.toNat = 0x1a15 then some (0, .none) else none
  | .consonant, joined =>
    if c.toNat = 0x2d7f then some (1, { following := .letter .joinerAndConsonant true })
    else if joined && pairedConsonants.holds c then some (0, .none)
    else none
  | .joinerAndConsonant, _ => if pairedConsonants.holds c then some (-1, .none) else none
  | .tone, _ => if between 0xa4f8 0xa4fb c then some (0, .none) else none
  | .orkhonI, true => if c.toNat = 0x10c32 then some (0, .none) else none
  | .vowelE, _ =>
    match c.toNat with
    | 0x16d63 | 0x16d69 => some (0, .none)
    | 0x16d67 => some (0, { following := .letter .vowelAi false })
    | 0x16d68 => some (1, { following := .letter .vowelE false })
    | _ => none
  | .vowelAi, _ => if c.toNat = 0x16d63 then some (0, .none) else none
  | _, false => none

/-- What a character before a joiner and a picture adds and is followed by, if it is joined. -/
def beforeJoiner? (c : Char) : Option (Int × Context) :=
  if c.toNat = 0x20e3 then some (0, { following := .joined true })
  else if isHalf c then some (1, { following := .joinedHalf })
  else if isModifier c then some (0, { following := .modifier })
  else if c.toNat = 0xe007f then some (0, { following := .tags 0 0 })
  else if pictures.holds c then some (0, { following := .picture })
  else none

/-- What a character before tags adds and is followed by, if it belongs to them. -/
def beforeTags? (c : Char) (letters digits : Nat) : Option (Int × Context) :=
  if between 0xe0061 0xe007a c && digits = 0 && letters < 6 then
    some (0, { following := .tags (letters + 1) 0 })
  else if between 0xe0030 0xe0039 c && letters ≤ 4 && digits < 3 then
    some (0, { following := .tags letters (digits + 1) })
  else if c.toNat = 0x1f3f4 && ((digits = 0 && 3 ≤ letters) || digits = 3) then
    some (0, { following := .picture })
  else none

/-- What a character adds and is followed by, if what follows it changes either. -/
def special? (c : Char) : Following → Option (Int × Context)
  | .modifier =>
    if modifiable.holds c then some (0, { following := .picture })
    else if c.toNat = 0x200d then some (0, { following := .joined false })
    else none
  | .half => if isHalf c then some (1, { following := .halves }) else none
  | .halves =>
    if isHalf c then some (1, { following := .halves })
    else if c.toNat = 0x200d then some (0, { following := .joined false })
    else none
  | .picture => if c.toNat = 0x200d then some (0, { following := .joined false }) else none
  | .joined false => beforeJoiner? c
  | .joined true => none
  | .joinedHalf | .joinedOdd => if isHalf c then some (-1, { following := .joinedEven }) else none
  | .joinedEven =>
    if isHalf c then some (3, { following := .joinedOdd })
    else if c.toNat = 0x200d then some (0, { following := .joined false })
    else none
  | .tags letters digits => beforeTags? c letters digits
  | .letter l joined => beforeLigature? c l joined
  | .other | .lineFeed => none

/-- Whether marks and joiners before a letter leave its ligature possible. -/
def Ligature.isPatient : Ligature → Bool
  | .alef => false
  | _ => true

/-- What a character adds to the columns of a line, and what it is to the character before it. -/
def measure (c : Char) (x : Context) : Int × Context :=
  if x.selector = some .picture && selectable.holds c then
    let width := match x.following with
      | .joined _ => 0
      | _ => 2
    (width, { following := .picture })
  else
    let x := if x.selector = some .picture then x.unselect else x
    if c = '\r' && x.following = .lineFeed then (0, .none)
    else if c.toNat ≤ 0xa0 then (1, contextOf c)
    else if c.toNat = 0xfe0f then (0, x.selectPicture)
    else if c.toNat = 0xfe0e then (0, x.selectPlain)
    else if x.selector = some .plain && deselectable.holds c then (1, .none)
    else
      let x := if x.selector = some .plain then x.unselect else x
      let passed : Option Context := match x.following with
        | .letter l joined =>
          if !l.isPatient then none
          else if c.toNat = 0x200d then some { following := .letter l true }
          else if ligatureMarks.holds c then some { following := .letter l joined }
          else none
        | _ => none
      match passed with
      | some context => (0, context)
      | none => (special? c x.following).getD (charWidth c, contextOf c)

/-- The columns that a line of text takes. -/
def width (s : String) : Nat :=
  let (columns, _) := s.toList.foldr
    (fun c (columns, context) =>
      let (width, context) := measure c context
      (columns + width, context))
    ((0 : Int), Context.none)
  columns.toNat

end Tabula.Text
