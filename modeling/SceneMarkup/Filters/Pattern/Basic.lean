import SceneMarkup.Filters.Octets

namespace SceneMarkup.Filters

/-!
# Patterns

A pattern describes texts.  From one place of a text it leads to others, the
preferred ones first: a repetition prefers more, a choice its first side.  Of
several ways to one place only the preferred one is kept, unless the pattern
looks back at what its groups took.
-/

/-- A set of octets: closed ranges, or everything outside of them. -/
structure OctetSet where
  ranges : List (Char × Char)
  negated : Bool := false
  deriving Repr, DecidableEq

/-- Something that holds between two octets. -/
inductive Border
  | lineStart
  | lineEnd
  | textStart
  | textEnd
  | wordStart
  | wordEnd
  | wordBorder
  | noWordBorder
  deriving Repr, DecidableEq

/-- A pattern. -/
inductive Pattern
  | empty
  | octet (set : OctetSet)
  | border (border : Border)
  | sequence (first second : Pattern)
  | choice (first second : Pattern)
  /-- Any number of repetitions. -/
  | star (repeated : Pattern)
  | group (number : Nat) (inner : Pattern)
  /-- The text that a group took. -/
  | again (number : Nat)
  deriving Repr, DecidableEq

/-- A place in a text, and the two ends of what each group took on the way. -/
structure Place where
  position : Nat
  groups : Array (Option (Nat × Nat))
  deriving Repr, DecidableEq

/-- A text in which a pattern is looked for. -/
structure Subject where
  text : Array Char
  /-- The case of letters means nothing. -/
  folds : Bool := false
  /-- The octet that ends lines within the text, if every line has a start and an end. -/
  lineMark : Option Char := none
  /-- Ways that differ in what groups took are kept apart. -/
  keepsGroups : Bool := false

namespace OctetSet

/-- All octets. -/
def any : OctetSet :=
  ⟨[], true⟩

/-- One octet. -/
def one (octet : Char) : OctetSet :=
  ⟨[(octet, octet)], false⟩

/-- Whether an octet is in one of the ranges. -/
def covers (set : OctetSet) (octet : Char) : Bool :=
  set.ranges.any fun range => range.1 ≤ octet && octet ≤ range.2

/-- Whether an octet fits; with `folds`, either case of it may. -/
def fits (set : OctetSet) (folds : Bool) (octet : Char) : Bool :=
  (set.covers octet || (folds && (set.covers octet.toLower || set.covers octet.toUpper)))
    != set.negated

end OctetSet

namespace Subject

/-- Whether the octet at a place belongs to a word. -/
def isWordAt (subject : Subject) (position : Nat) : Bool :=
  (subject.text[position]?).any Octets.isWordOctet

/-- Whether the octet before a place belongs to a word. -/
def isWordBefore (subject : Subject) (position : Nat) : Bool :=
  position != 0 && subject.isWordAt (position - 1)

/-- Whether a border is at a place. -/
def holds (subject : Subject) (border : Border) (position : Nat) : Bool :=
  match border with
  | .textStart => position == 0
  | .textEnd => position == subject.text.size
  | .lineStart =>
      position == 0 || (subject.lineMark.isSome && subject.text[position - 1]? == subject.lineMark)
  | .lineEnd =>
      position == subject.text.size
        || (subject.lineMark.isSome && subject.text[position]? == subject.lineMark)
  | .wordStart => !subject.isWordBefore position && subject.isWordAt position
  | .wordEnd => subject.isWordBefore position && !subject.isWordAt position
  | .wordBorder => subject.isWordBefore position != subject.isWordAt position
  | .noWordBorder => subject.isWordBefore position == subject.isWordAt position

/-- Whether an octet ends a line, where lines have ends within the text. -/
def endsLine (subject : Subject) (octet : Char) : Bool :=
  subject.lineMark.any fun mark => octet == mark || octet == '\n'

/-- Whether the octet at a place fits a set; an octet that ends a line is in no negated set. -/
def fitsAt (subject : Subject) (set : OctetSet) (position : Nat) : Bool :=
  match subject.text[position]? with
  | some octet =>
      set.fits subject.folds octet && !(set.negated && subject.endsLine octet)
  | none => false

/-- The places after the octets from `position` on that fit a set, the last one first. -/
def runFrom (subject : Subject) (set : OctetSet) (position : Nat) (before : List Nat) : List Nat :=
  if subject.fitsAt set position && position < subject.text.size then
    runFrom subject set (position + 1) (position :: before)
  else position :: before
termination_by subject.text.size - position
decreasing_by
  simp_all
  omega

/-- Whether two octets are the same. -/
def same (subject : Subject) (first second : Char) : Bool :=
  first == second || (subject.folds && first.toLower == second.toLower)

/-- Whether the text between two ends stands at a place once more. -/
def repeatsAt (subject : Subject) (start stop position : Nat) : Bool :=
  position + (stop - start) ≤ subject.text.size
    && (List.range (stop - start)).all fun step =>
      match subject.text[start + step]?, subject.text[position + step]? with
      | some first, some second => subject.same first second
      | _, _ => false

/-- Of several ways to one place keep the first. -/
def firstWays (subject : Subject) (places : List Place) : List Place :=
  match places with
  | [] => []
  | [place] => [place]
  | places =>
      if subject.keepsGroups then places.eraseDups
      else
        let start : Array Bool × List Place :=
          (Array.replicate (subject.text.size + 1) false, [])
        (places.foldl
          (fun kept place =>
            if (kept.1[place.position]?).getD true then kept
            else (kept.1.setIfInBounds place.position true, place :: kept.2))
          start).2.reverse

/-- Whether one of two ways makes the other one needless. -/
def sameWay (subject : Subject) (first second : Place) : Bool :=
  first.position == second.position && (!subject.keepsGroups || first.groups == second.groups)

/--
Repeat a step that leads from a place to others: the places seen, and those found in rising order
of preference.  A repetition that stays at its place leads nowhere.
-/
def repeated (subject : Subject) (step : Place → List Place) :
    Nat → List Place × List Place → Place → List Place × List Place
  | 0, found, _ => found
  | fuel + 1, (seen, found), place =>
      if seen.any (subject.sameWay place) then (seen, found)
      else
        let further := (step place).filter fun next => next.position != place.position
        let (seen, found) := further.foldl (repeated subject step fuel) (place :: seen, found)
        (seen, place :: found)

/-- The places to which a pattern leads from a place, the preferred ones first. -/
def ways (subject : Subject) : Pattern → Place → List Place
  | .empty, place => [place]
  | .octet set, place =>
      if subject.fitsAt set place.position then
        [{ place with position := place.position + 1 }]
      else []
  | .border border, place => if subject.holds border place.position then [place] else []
  | .sequence first second, place =>
      subject.firstWays ((ways subject first place).flatMap (ways subject second))
  | .choice first second, place =>
      subject.firstWays (ways subject first place ++ ways subject second place)
  | .star (.octet set), place =>
      (subject.runFrom set place.position []).map fun position => { place with position := position }
  | .star inner, place =>
      (subject.repeated (ways subject inner) (subject.text.size + 1) ([], []) place).2.reverse
  | .group number inner, place =>
      (ways subject inner place).map fun next =>
        { next with groups := next.groups.setIfInBounds number (some (place.position, next.position)) }
  | .again number, place =>
      match (place.groups[number]?).join with
      | some (start, stop) =>
          if subject.repeatsAt start stop place.position then
            [{ place with position := place.position + (stop - start) }]
          else []
      | none => []

end Subject

/-- A pattern as it is read, with the number of its groups. -/
structure Search where
  pattern : Pattern
  groups : Nat
  folds : Bool := false
  /-- The octet that ends lines within a text, if every line has a start and an end. -/
  lineMark : Option Char := none
  /-- Whether the pattern looks back at what its groups took. -/
  looksBack : Bool := false
  deriving Repr, DecidableEq

/-- A match: where it starts, where it stops, and what its groups took. -/
structure Match where
  start : Nat
  stop : Nat
  groups : Array (Option (Nat × Nat))
  deriving Repr, DecidableEq

namespace Search

/-- The text as this pattern looks at it. -/
def subject (search : Search) (text : Array Char) : Subject :=
  ⟨text, search.folds, search.lineMark, search.looksBack⟩

/-- The places to which the pattern leads from `start`, the preferred ones first. -/
def waysFrom (search : Search) (text : Array Char) (start : Nat) : List Place :=
  (search.subject text).ways search.pattern ⟨start, Array.replicate (search.groups + 1) none⟩

/-- The longest match that starts at `start`; of several the preferred one. -/
def longestAt? (search : Search) (text : Array Char) (start : Nat) : Option Match :=
  let best := (search.waysFrom text start).foldl
    (fun best place =>
      match best with
      | none => some place
      | some (other : Place) =>
          if other.position < place.position then some place else some other)
    none
  best.map fun place => ⟨start, place.position, place.groups⟩

/-- The first match that starts at `start` or one of the `count` places after it. -/
def firstFrom? (search : Search) (text : Array Char) : Nat → Nat → Option Match
  | 0, start => search.longestAt? text start
  | count + 1, start =>
      match search.longestAt? text start with
      | some found => some found
      | none => firstFrom? search text count (start + 1)

/-- The first match that starts at `start` or later. -/
def first? (search : Search) (text : Array Char) (start : Nat) : Option Match :=
  if text.size < start then none else search.firstFrom? text (text.size - start) start

/-- Whether a text has a match. -/
def isIn (search : Search) (text : Octets) : Bool :=
  (search.first? text.toArray 0).isSome

end Search

end SceneMarkup.Filters
