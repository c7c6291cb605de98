import SceneMarkup.Filters.Pattern.Token

namespace SceneMarkup.Filters

/-!
# Reading patterns

Tokens are put together one by one.  A group that is open holds the sides of a
choice that are finished and the units of the side that is not.
-/

/-- A group that is open; what it holds is held backwards. -/
structure OpenGroup where
  number : Nat
  /-- The groups that were closed before this one was opened. -/
  closedBefore : List Nat := []
  /-- The groups that are closed in finished sides. -/
  closedInSides : List Nat := []
  sides : List Pattern := []
  units : List Pattern := []
  deriving Repr, DecidableEq

/-- Groups that are open, the innermost first, and what is known of the pattern so far. -/
structure PatternBuilder where
  innermost : OpenGroup := { number := 0 }
  outer : List OpenGroup := []
  groups : Nat := 0
  /-- The groups that the side that is read may look back at. -/
  closed : List Nat := []
  looksBack : Bool := false
  deriving Repr, DecidableEq

namespace Pattern

/-- Patterns one after another. -/
def inOrder : List Pattern → Pattern
  | [] => .empty
  | [pattern] => pattern
  | pattern :: rest => .sequence pattern (inOrder rest)

/-- A pattern that may come up to so many times. -/
def upTo (repeated : Pattern) : Nat → Pattern
  | 0 => .empty
  | most + 1 => .choice (.sequence repeated (upTo repeated most)) .empty

/-- A pattern that comes so many times at least and at most. -/
def times (repeated : Pattern) (least : Nat) (most : Option Nat) : Pattern :=
  let further :=
    match most with
    | none => Pattern.star repeated
    | some most => upTo repeated (most - least)
  match least, most with
  | 0, _ => further
  | _, some most =>
      if most = least then inOrder (List.replicate least repeated)
      else inOrder (List.replicate least repeated ++ [further])
  | _, none => inOrder (List.replicate least repeated ++ [further])

end Pattern

namespace OpenGroup

/-- Add a unit to the side that is not finished. -/
def withUnit (group : OpenGroup) (unit : Pattern) : OpenGroup :=
  { group with units := unit :: group.units }

/-- The choice between the sides, all of them finished. -/
def whole (group : OpenGroup) : Pattern :=
  group.sides.foldl (fun later side => Pattern.choice side later)
    (Pattern.inOrder group.units.reverse)

/-- Finish a side in which some groups are closed. -/
def withSide (group : OpenGroup) (closed : List Nat) : OpenGroup :=
  { group with
    closedInSides := closed ++ group.closedInSides
    sides := Pattern.inOrder group.units.reverse :: group.sides
    units := [] }

end OpenGroup

namespace PatternBuilder

/-- Add a unit to the innermost group. -/
def withUnit (builder : PatternBuilder) (unit : Pattern) : PatternBuilder :=
  { builder with innermost := builder.innermost.withUnit unit }

/-- Take one token. -/
def step (builder : PatternBuilder) (token : PatternToken) : Except PatternFault PatternBuilder :=
  match token with
  | .octets set => .ok (builder.withUnit (.octet set))
  | .border border => .ok (builder.withUnit (.border border))
  | .again number =>
      if builder.closed.contains number then
        .ok { builder.withUnit (.again number) with looksBack := true }
      else .error .badReference
  | .alternate =>
      .ok { builder with
        innermost := builder.innermost.withSide builder.closed
        closed := builder.innermost.closedBefore }
  | .openGroup =>
      .ok { builder with
        innermost := { number := builder.groups + 1, closedBefore := builder.closed }
        outer := builder.innermost :: builder.outer
        groups := builder.groups + 1 }
  | .closeGroup =>
      match builder.outer with
      | [] => .error .strayClose
      | next :: outer =>
          let group := builder.innermost
          .ok { builder with
            innermost := next.withUnit (.group group.number group.whole)
            outer := outer
            closed := group.number :: builder.closed ++ group.closedInSides }
  | .times least most =>
      match builder.innermost.units with
      | [] => .error .nothingToRepeat
      | unit :: units =>
          let repeated := unit.times least most
          .ok { builder with innermost := { builder.innermost with units := repeated :: units } }

end PatternBuilder

/-- Read a pattern that is written in a dialect. -/
def Search.ofOctets (dialect : Dialect) (folds : Bool) (lineMark : Option Char) (text : Octets) :
    Except PatternFault Search := do
  let tokens ← dialect.tokens (text.length + 1) .nothing 0 text
  let builder ← tokens.foldlM PatternBuilder.step {}
  if builder.outer.isEmpty then
    return ⟨builder.innermost.whole, builder.groups, folds, lineMark, builder.looksBack⟩
  else throw .openGroup

/-- The search for exactly a text. -/
def Search.literal (folds : Bool) (text : Octets) : Search :=
  ⟨Pattern.inOrder (text.map fun octet => .octet (.one octet)), 0, folds, none, false⟩

end SceneMarkup.Filters
