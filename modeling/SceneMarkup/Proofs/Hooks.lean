import SceneMarkup.Proofs.Bindings
import SceneMarkup.Proofs.Literals

namespace SceneMarkup.Component

open Scene Markup

/-!
# What the hooks load

A module calls the asset hook in the statements of its functions and, to load the
asset ahead of time, once outside of them.  The reader finds these calls by their
brackets: what stands deeper is an expression or markup.  Whatever names, paths
and data a module is filled with, they are literals or stand deeper, so the only
calls found are those that the module is meant to make.
-/

/-- A call of the asset hook with the text that it is given first; nothing for one that no literal
begins. -/
inductive HookCall
  | loads (argument : Option String)
  /-- The call that loads the asset ahead of time. -/
  | preloads (argument : Option String)
  deriving Repr, DecidableEq

/-- Where the reader stands, and how many brackets are open. -/
structure Spot where
  place : Place
  depth : Nat
  deriving Repr, DecidableEq

/-- The open brackets behind a piece. -/
def shift (depth : Nat) : Piece → Nat
  | .mark character =>
      if character = '(' ∨ character = openBrace then depth + 1
      else if character = ')' ∨ character = closeBrace then depth - 1
      else depth
  | _ => depth

/-- The name of the asset hook. -/
def hookName : List Char := "useGLTF".toList

namespace Spot

/-- Take one character. -/
def take (spot : Spot) (character : Char) : Spot :=
  match spot.place.take character with
  | (pieces, next) => ⟨next, pieces.foldl shift spot.depth⟩

/-- Take the characters of a text. -/
def run (spot : Spot) (text : List Char) : Spot :=
  text.foldl take spot

/-- The name of the hook ends here, in a statement and not as a member. -/
def NamesHook (spot : Spot) : Prop :=
  spot.depth ≤ 1 ∧ spot.place = .word 0 hookName

instance (spot : Spot) : Decidable spot.NamesHook :=
  inferInstanceAs (Decidable (_ ∧ _))

end Spot

/-- The text of the literal that the arguments of a call begin with. -/
def firstArgument? : List Char → Option String
  | '\x27' :: rest => (literalFrom? false rest).map fun read => String.ofList read.1
  | _ => none

/-- The call that the name of the hook begins, if one stands behind it. -/
def callAt? : List Char → Option HookCall
  | '(' :: rest => some (.loads (firstArgument? rest))
  | '.' :: rest =>
      if "preload(".toList <+: rest then some (.preloads (firstArgument? (rest.drop 8))) else none
  | _ => none

/-- The calls of the hook from a spot on. -/
def callsFrom : Spot → List Char → List HookCall
  | _, [] => []
  | spot, character :: rest =>
      (if spot.NamesHook then callAt? (character :: rest) else none).toList
        ++ callsFrom (spot.take character) rest

/-- The calls of the hook in a module that begins with its only comment. -/
def hookCalls (text : String) : List HookCall :=
  callsFrom ⟨.code 0, 0⟩ (afterComment (text.toList.drop 2))

/-- The hook is called in a statement; what a literal, a comment or markup holds is no call. -/
example :
    hookCalls
        "/* useGLTF('/a') */\nuseGLTF('/a\\'b')\nf(\x7buseGLTF('/c')\x7d)\nuseGLTF.preload('useGLTF(')" =
      [.loads (some "/a'b"), .preloads (some "useGLTF(")] := by
  decide +kernel

section Depths

/-- A character moves the place, and the pieces that it completes shift the depth. -/
@[simp] theorem take_mk
    (place : Place)
    (depth : Nat)
    (character : Char) :
    Spot.take ⟨place, depth⟩ character =
      ⟨(place.take character).2, (place.take character).1.foldl shift depth⟩ :=
  rfl

theorem run_cons
    (spot : Spot)
    (character : Char)
    (rest : List Char) :
    spot.run (character :: rest) = (spot.take character).run rest :=
  rfl

/-- Two texts are run one after the other. -/
theorem run_append
    (spot : Spot)
    (first second : List Char) :
    spot.run (first ++ second) = (spot.run first).run second :=
  List.foldl_append

/-- What is open at two spots differs no more than what was open before. -/
def Narrows (low high after above : Nat) : Prop :=
  after ≤ above ∧ above + low ≤ after + high

/-- One piece leaves the deeper of two spots the deeper one and brings them no further apart. -/
theorem narrows_shift
    {low high : Nat}
    (below : low ≤ high)
    (piece : Piece) :
    Narrows low high (shift low piece) (shift high piece) := by
  unfold Narrows
  cases piece with
  | mark character =>
      simp only [shift]
      split_ifs <;> omega
  | keyword keyword => exact ⟨below, (Nat.add_comm high low).le⟩
  | name name => exact ⟨below, (Nat.add_comm high low).le⟩

/-- A row of pieces leaves the deeper of two spots the deeper one, no further off than before. -/
theorem narrows_foldl
    {low high : Nat}
    (below : low ≤ high)
    (pieces : List Piece) :
    Narrows low high (pieces.foldl shift low) (pieces.foldl shift high) := by
  induction pieces generalizing low high with
  | nil => exact ⟨below, (Nat.add_comm high low).le⟩
  | cons piece rest ih =>
      obtain ⟨ordered, near⟩ := narrows_shift below piece
      obtain ⟨later, nearer⟩ := ih ordered
      refine ⟨later, ?_⟩
      simp only [List.foldl_cons]
      omega

/-- Two readers at one place go on alike, and what is open only gets closer. -/
theorem narrows_run
    {low high : Spot}
    (same : low.place = high.place)
    (below : low.depth ≤ high.depth)
    (text : List Char) :
    (low.run text).place = (high.run text).place ∧
      Narrows low.depth high.depth (low.run text).depth (high.run text).depth := by
  induction text generalizing low high with
  | nil => exact ⟨same, below, (Nat.add_comm high.depth low.depth).le⟩
  | cons character rest ih =>
      obtain ⟨place, low⟩ := low
      obtain ⟨_, high⟩ := high
      cases same
      have next : (Spot.take ⟨place, low⟩ character).place =
          (Spot.take ⟨place, high⟩ character).place :=
        rfl
      obtain ⟨ordered, near⟩ := narrows_foldl below (place.take character).1
      obtain ⟨same, later, nearer⟩ := ih next ordered
      refine ⟨same, later, ?_⟩
      simp only [run_cons, take_mk] at near nearer ⊢
      omega

/-- The depth of a reading is shifted by each piece that it takes. -/
theorem depth_take
    (reading : Reading)
    (piece : Piece) :
    (reading.take piece).depth = shift reading.depth piece := by
  obtain ⟨role, depth, imports, types, outer, function?, finished⟩ := reading
  cases piece with
  | keyword keyword => cases keyword <;> rfl
  | name name => cases role <;> cases function? <;> rfl
  | mark character =>
      simp only [Reading.take, Reading.takeMark, Reading.close, shift]
      split_ifs <;> grind

/-- The depth of a reading is shifted by a row of pieces. -/
theorem depth_foldl
    (pieces : List Piece)
    (reading : Reading) :
    (pieces.foldl Reading.take reading).depth = pieces.foldl shift reading.depth := by
  induction pieces generalizing reading with
  | nil => rfl
  | cons piece rest ih => rw [List.foldl_cons, List.foldl_cons, ih, depth_take]

/-- The reader of a module stands where the reader of calls does. -/
theorem run_of_run
    {place last : Place}
    {reading after : Reading}
    {text : List Char}
    (reads : Cursor.run ⟨place, reading⟩ text = ⟨last, after⟩) :
    Spot.run ⟨place, reading.depth⟩ text = ⟨last, after.depth⟩ := by
  induction text generalizing place reading with
  | nil =>
      cases reads
      rfl
  | cons character rest ih =>
      have later :
          Spot.run ⟨(place.take character).2,
              ((place.take character).1.foldl Reading.take reading).depth⟩ rest =
            ⟨last, after.depth⟩ :=
        ih reads
      rwa [depth_foldl] at later

end Depths

section Silence

/-- Where a text leads on which nothing is called. -/
def Spot.pass? : Spot → List Char → Option Spot
  | spot, [] => some spot
  | spot, character :: rest =>
      bif decide (spot.NamesHook ∧ (character = '(' ∨ character = '.')) then none
      else (spot.take character).pass? rest

/-- The text leads from one spot to another, and nothing is called on the way. -/
def Silent (start : Spot) (text : String) (last : Spot) : Prop :=
  start.pass? text.toList = some last

/-- Where the name of the hook does not end, nothing is called. -/
theorem pass?_cons
    {spot : Spot}
    (other : ¬ spot.NamesHook)
    (character : Char)
    (rest : List Char) :
    spot.pass? (character :: rest) = (spot.take character).pass? rest := by
  have silent : ¬ (spot.NamesHook ∧ (character = '(' ∨ character = '.')) := fun called =>
    other called.1
  rw [Spot.pass?, decide_eq_false silent, cond_false]

/-- Two texts are passed if the first is and the second is from there on. -/
theorem pass?_append
    (spot : Spot)
    (first second : List Char) :
    spot.pass? (first ++ second) = (spot.pass? first).bind fun middle => middle.pass? second := by
  induction first generalizing spot with
  | nil => rfl
  | cons character rest ih =>
      rw [List.cons_append, Spot.pass?, Spot.pass?, ih]
      cases decide (spot.NamesHook ∧ (character = '(' ∨ character = '.')) <;> rfl

theorem silent_empty
    (spot : Spot) :
    Silent spot "" spot :=
  rfl

/-- Two silent texts are silent together. -/
theorem silent_append
    {start middle last : Spot}
    {first second : String}
    (begins : Silent start first middle)
    (ends : Silent middle second last) :
    Silent start (first ++ second) last := by
  rw [Silent, String.toList_append, pass?_append, begins]
  exact ends

/-- Nothing is called in brackets inside of statements. -/
theorem pass?_of_deep
    {spot : Spot}
    {text : List Char}
    (deep : ∀ front, front <+: text → 2 ≤ (spot.run front).depth) :
    spot.pass? text = some (spot.run text) := by
  induction text generalizing spot with
  | nil => rfl
  | cons character rest ih =>
      have here : ¬ spot.NamesHook := fun named =>
        absurd (deep [] List.nil_prefix) (Nat.not_le_of_gt (Nat.lt_succ_of_le named.1))
      rw [pass?_cons here]
      exact ih fun front begins =>
        deep (character :: front) (List.cons_prefix_cons.mpr ⟨rfl, begins⟩)

/-- A passage closes no bracket that it does not open, so inside of statements nothing is called. -/
theorem exists_silent
    {allowed : List String}
    {begins ends : Place → Prop}
    {text : String}
    (passes : Passes allowed begins text.toList ends)
    {place : Place}
    (starts : begins place)
    {depth : Nat}
    (deep : 2 ≤ depth) :
    ∃ last, ends last ∧ Silent ⟨place, depth⟩ text ⟨last, depth⟩ := by
  obtain ⟨last, names, ended, _, reads⟩ := passes place starts
  have runs : ∀ depth, Spot.run ⟨place, depth⟩ text.toList = ⟨last, depth⟩ := by
    intro depth
    have steady : Reading.Steady ⟨.used, depth, [], [], ⟨[], []⟩, none, []⟩ := ⟨rfl, .inr rfl⟩
    exact run_of_run (reads _ steady)
  refine ⟨last, ended, (pass?_of_deep fun front ⟨back, whole⟩ => ?_).trans
    (congrArg some (runs depth))⟩
  -- What is read from no open bracket shows how far the brackets around are from being closed.
  have start : Spot.place ⟨place, 0⟩ = Spot.place ⟨place, depth⟩ := rfl
  obtain ⟨same, ordered, _⟩ := narrows_run start (Nat.zero_le depth) front
  obtain ⟨_, _, near⟩ := narrows_run same ordered back
  simp only [← run_append, whole, runs] at near
  omega

/-- A text that a scope passes at rest is silent where it stands two scopes deep. -/
theorem silent_passage
    {allowed : List String}
    {text : String}
    (passes : Passes allowed Place.Rests text.toList Place.Rests)
    {depth : Nat}
    (deep : 2 ≤ depth) :
    Silent ⟨.code 0, depth⟩ text ⟨.code 0, depth⟩ := by
  obtain ⟨_, rfl, silent⟩ := exists_silent passes rfl deep
  exact silent

/-- A spelled text is passed inside its literal. -/
theorem pass?_spelled
    {delimiter : Char}
    {inside : List Char}
    (spelled : Spelled delimiter inside)
    (depth : Nat) :
    Spot.pass? ⟨.literal delimiter, depth⟩ inside = some ⟨.literal delimiter, depth⟩ := by
  have literal : ¬ Spot.NamesHook ⟨.literal delimiter, depth⟩ := fun named => by cases named.2
  have escape : ¬ Spot.NamesHook ⟨.escape delimiter, depth⟩ := fun named => by cases named.2
  induction spelled with
  | nil => rfl
  | bare other unescaped _ ih =>
      rw [pass?_cons literal, take_mk, Place.take, if_neg unescaped, if_neg other]
      exact ih
  | escape character _ ih =>
      rw [pass?_cons literal, take_mk, Place.take, if_pos rfl]
      exact (pass?_cons escape character _).trans ih

/-- A literal calls nothing, wherever it stands. -/
theorem silent_literal
    {delimiter : Char}
    (quotes : IsDelimiter delimiter)
    {inside : List Char}
    (spelled : Spelled delimiter inside)
    {text : String}
    (shape : text.toList = delimiter :: inside ++ [delimiter])
    (depth : Nat) :
    Silent ⟨.code 0, depth⟩ text ⟨.code 0, depth⟩ := by
  have outside : ¬ Spot.NamesHook ⟨.code 0, depth⟩ := fun named => by cases named.2
  have opened : Spot.take ⟨.code 0, depth⟩ delimiter = ⟨.literal delimiter, depth⟩ := by
    rcases quotes with rfl | rfl <;> rfl
  have closed : Spot.pass? ⟨.literal delimiter, depth⟩ [delimiter] = some ⟨.code 0, depth⟩ := by
    have within : ¬ Spot.NamesHook ⟨.literal delimiter, depth⟩ := fun named => by cases named.2
    rw [pass?_cons within]
    rcases quotes with rfl | rfl <;> rfl
  rw [Silent, shape, List.cons_append, pass?_cons outside, opened, pass?_append,
    pass?_spelled spelled]
  exact closed

/-- A literal between apostrophes is silent. -/
theorem silent_quoted
    (text : String)
    (depth : Nat) :
    Silent ⟨.code 0, depth⟩ (Text.quoted text) ⟨.code 0, depth⟩ := by
  refine silent_literal (.inr rfl) (spelled_flatMap spelled_escapedChar text.toList) ?_ depth
  simp [Text.quoted, Text.escaped]

/-- A literal between double quotes is silent. -/
theorem silent_quotedText
    (text : String)
    (depth : Nat) :
    Silent ⟨.code 0, depth⟩ (Json.quotedText text) ⟨.code 0, depth⟩ := by
  refine silent_literal (.inl rfl) (spelled_flatMap spelled_jsonChar text.toList) ?_ depth
  simp [Json.quotedText]

/-- Parts one after another, each followed by what separates them or by what ends the list. -/
theorem silent_intercalate
    {spot last : Spot}
    {separator ending : String}
    {parts : List String}
    (filled : parts ≠ [])
    (follows : ∀ part ∈ parts, Silent spot (part ++ separator) spot)
    (closes : ∀ part ∈ parts, Silent spot (part ++ ending) last) :
    Silent spot (separator.intercalate parts ++ ending) last := by
  induction parts with
  | nil => exact absurd rfl filled
  | cons part rest ih =>
      obtain ⟨follow, follows⟩ := List.forall_mem_cons.mp follows
      obtain ⟨close, closes⟩ := List.forall_mem_cons.mp closes
      cases rest with
      | nil =>
          rw [String.intercalate_singleton]
          exact close
      | cons next more =>
          rw [String.intercalate_cons_cons, String.append_assoc]
          exact silent_append follow (ih (List.cons_ne_nil next more) follows closes)

end Silence

section Calls

/-- What a reader takes a text as, from the literal that is written for it. -/
def readable? (text : String) : Option String :=
  if text.toList.any fun character => decide (IsLineBreak character) then none else some text

theorem any_isLineBreak_iff
    (text : List Char) :
    (text.any fun character => decide (IsLineBreak character)) = true ↔ BreaksLine text := by
  simp [BreaksLine]

/-- The first argument of a call is the literal that is written there, if it can be read. -/
theorem firstArgument?_quoted
    (text : String)
    (rest : List Char) :
    firstArgument? ((Text.quoted text).toList ++ rest) = readable? text := by
  have spelled : (Text.quoted text).toList ++ rest =
      Text.apostrophe :: (text.toList.flatMap Text.escapedChar ++ Text.apostrophe :: rest) := by
    simp [Text.quoted, Text.escaped]
  rw [spelled]
  show (literalFrom? false _).map _ = _
  rw [literalFrom?_escaped]
  simp only [readable?, any_isLineBreak_iff]
  split
  next => rfl
  next => simp

/-- The text leads from one spot to another, with the calls on the way. -/
def Performs (start : Spot) (text : String) (calls : List HookCall) (last : Spot) : Prop :=
  ∀ rest, callsFrom start (text.toList ++ rest) = calls ++ callsFrom last rest

/-- Two texts perform the calls of the first and then those of the second. -/
theorem performs_append
    {start middle last : Spot}
    {first second : String}
    {calls others : List HookCall}
    (begins : Performs start first calls middle)
    (ends : Performs middle second others last) :
    Performs start (first ++ second) (calls ++ others) last := by
  intro rest
  rw [String.toList_append, List.append_assoc, begins, ends, List.append_assoc]

/-- No call starts at a character that is neither a bracket nor a dot. -/
theorem callAt?_eq_none
    {character : Char}
    (other : ¬ (character = '(' ∨ character = '.'))
    (rest : List Char) :
    callAt? (character :: rest) = none := by
  unfold callAt?
  split
  next same => exact (other (.inl (List.cons.inj same).1)).elim
  next same => exact (other (.inr (List.cons.inj same).1)).elim
  next => rfl

/-- A text that is passed holds no call, so that the calls are those of the rest. -/
theorem callsFrom_of_pass
    {spot last : Spot}
    {text : List Char}
    (passed : spot.pass? text = some last)
    (rest : List Char) :
    callsFrom spot (text ++ rest) = callsFrom last rest := by
  induction text generalizing spot with
  | nil =>
      cases passed
      rfl
  | cons character text ih =>
      rw [Spot.pass?, Bool.cond_decide] at passed
      split at passed
      next => cases passed
      next silent =>
        have uncalled :
            (if spot.NamesHook then callAt? (character :: (text ++ rest)) else none) = none := by
          split
          next named => exact callAt?_eq_none (fun opens => silent ⟨named, opens⟩) _
          next => rfl
        rw [List.cons_append, callsFrom, uncalled]
        exact ih passed

/-- In front of other text a silent one adds no call. -/
theorem Silent.callsFrom_append
    {start last : Spot}
    {text : String}
    (silent : Silent start text last)
    (rest : List Char) :
    callsFrom start (text.toList ++ rest) = callsFrom last rest :=
  callsFrom_of_pass silent rest

/-- A silent text performs no call. -/
theorem Silent.performs
    {start last : Spot}
    {text : String}
    (silent : Silent start text last) :
    Performs start text [] last :=
  silent.callsFrom_append

end Calls

section Parts

variable {source : Source}

/-- A closing parenthesis ends what was inside. -/
theorem take_close
    {allowed : List String}
    {place : Place}
    (ready : place.Ready allowed)
    (depth : Nat) :
    Spot.take ⟨place, depth + 1⟩ ')' = ⟨.code 0, depth⟩ := by
  cases place with
  | code => rfl
  | equals => rfl
  | word dots letters =>
      have words : (wordsOf dots letters ')').foldl shift (depth + 1) = depth + 1 := by
        unfold wordsOf Piece.ofWord
        split_ifs
        · rfl
        · split <;> rfl
      have breaks : ¬ Text.continuesIdentifier ')' = true := by
        decide
      rw [take_mk, Place.take, if_neg breaks]
      simp only [List.foldl_append, words]
      rfl
  | text => exact ready.elim
  | literal => exact ready.elim
  | escape => exact ready.elim

/-- A call in a statement is found, and nothing in its arguments. -/
theorem performs_call
    {allowed : List String}
    {arguments : String}
    (passes : Passes allowed Place.Rests arguments.toList (Place.Ready allowed))
    {argument : Option String}
    (first : ∀ rest, firstArgument? (arguments.toList ++ rest) = argument) :
    Performs ⟨.code 0, 1⟩ ("useGLTF(" ++ arguments ++ ")") [.loads argument] ⟨.code 0, 1⟩ := by
  intro rest
  obtain ⟨last, ready, silent⟩ := exists_silent passes rfl Nat.le.refl
  have name : Silent ⟨.code 0, 1⟩ "useGLTF" ⟨.word 0 hookName, 1⟩ :=
    rfl
  have shape : ("useGLTF(" ++ arguments ++ ")").toList ++ rest =
      "useGLTF".toList ++ '(' :: (arguments.toList ++ ')' :: rest) := by
    simp
  have opened : ∀ more, callsFrom ⟨.word 0 hookName, 1⟩ ('(' :: more) =
      .loads (firstArgument? more) :: callsFrom ⟨.code 0, 2⟩ more :=
    fun _ => rfl
  have deep : ¬ Spot.NamesHook ⟨last, 2⟩ := fun named =>
    Nat.not_succ_le_self 1 named.1
  rw [shape, name.callsFrom_append, opened, first, silent.callsFrom_append, callsFrom, if_neg deep,
    take_close ready]
  rfl

/-- The line that loads the asset performs one call, with the address of the asset. -/
theorem performs_load
    (source : Source) :
    Performs ⟨.code 0, 1⟩ source.load [.loads (readable? (assetAddress source.fileName))]
      ⟨.code 0, 1⟩ := by
  have address : Passes [] Place.Rests source.address.toList Place.Rests :=
    passes_quoted (assetAddress source.fileName)
  cases decoder : source.options.draco with
  | none =>
      have shape : source.load = "useGLTF(" ++ source.address ++ ")" := by
        rw [Source.load, decoder]
      rw [shape]
      exact performs_call address.ready fun rest => firstArgument?_quoted _ rest
  | some argument =>
      have shape : source.load =
          "useGLTF(" ++ (source.address ++ (", " ++ argument.compact)) ++ ")" := by
        simp only [Source.load, decoder, String.append_assoc]
      have comma : Passes [] (Place.Ready []) ", ".toList Place.Rests :=
        passes_breaks (by decide) (by decide)
      have passes : Passes [] Place.Rests (source.address ++ (", " ++ argument.compact)).toList
          (Place.Ready []) := by
        simp only [String.toList_append]
        exact passes_append address.ready
          (passes_append comma (passes_constantText (constant_compact argument)))
      rw [shape]
      refine performs_call passes fun rest => ?_
      simp only [String.toList_append, List.append_assoc]
      exact firstArgument?_quoted _ _

/-- With types the line that loads the asset performs the same call. -/
theorem performs_typedLoad
    (source : Source) :
    Performs ⟨.code 0, 1⟩ (source.typedLoad ++ "\n")
      [.loads (readable? (assetAddress source.fileName))] ⟨.code 0, 1⟩ := by
  have type : Silent ⟨.code 0, 1⟩ ((if source.options.types then " as GLTFResult" else "") ++ "\n")
      ⟨.code 0, 1⟩ := by
    cases source.options.types <;> rfl
  have whole := performs_append (performs_load source) type.performs
  rwa [← String.append_assoc] at whole

/-- The last line performs one call that loads ahead, with the address of the asset. -/
theorem performs_preloadCall
    (source : Source) :
    Performs ⟨.code 0, 0⟩ (preloadCall source)
      [.preloads (readable? (assetAddress source.fileName))] ⟨.code 0, 0⟩ := by
  intro rest
  have name : Silent ⟨.code 0, 0⟩ "\nuseGLTF" ⟨.word 0 hookName, 0⟩ :=
    rfl
  have member : Silent ⟨.code 1, 0⟩ "preload(" ⟨.code 0, 1⟩ :=
    rfl
  have ended : Silent ⟨.code 0, 1⟩ ")\n" ⟨.code 0, 0⟩ :=
    rfl
  have arguments : Silent ⟨.code 1, 0⟩ _ ⟨.code 0, 0⟩ := silent_append member (silent_append
    (silent_quoted (assetAddress source.fileName) 1) ended)
  have shape : (preloadCall source).toList ++ rest =
      "\nuseGLTF".toList ++ '.' :: ("preload(".toList ++
        ((Text.quoted (assetAddress source.fileName)).toList ++ (")\n".toList ++ rest))) := by
    have spelled : "\nuseGLTF.preload(" = "\nuseGLTF" ++ ("." ++ "preload(") :=
      rfl
    have dot : ".".toList = ['.'] := by
      decide
    unfold preloadCall Source.address
    rw [spelled]
    simp only [String.toList_append, List.append_assoc, dot, List.cons_append, List.nil_append]
  have dotted : ∀ more, callsFrom ⟨.word 0 hookName, 0⟩ ('.' :: ("preload(".toList ++ more)) =
      .preloads (firstArgument? more) :: callsFrom ⟨.code 1, 0⟩ ("preload(".toList ++ more) := by
    intro more
    have found : callAt? ('.' :: ("preload(".toList ++ more)) =
        some (.preloads (firstArgument? more)) := by
      rw [callAt?, if_pos (List.prefix_append _ _), List.drop_left' (by decide)]
    have named : Spot.NamesHook ⟨.word 0 hookName, 0⟩ := ⟨Nat.zero_le 1, rfl⟩
    have dot : Spot.take ⟨.word 0 hookName, 0⟩ '.' = ⟨.code 1, 0⟩ :=
      rfl
    rw [callsFrom, if_pos named, found, dot]
    rfl
  have silent := arguments.callsFrom_append rest
  simp only [String.toList_append, List.append_assoc] at silent
  rw [shape, name.callsFrom_append, dotted, firstArgument?_quoted, silent]
  rfl

/-- The import of library names performs no call. -/
theorem silent_libraryNames
    (source : Source) :
    Silent ⟨.code 0, 0⟩
      ("import \x7b " ++ ", ".intercalate source.libraryNames ++ " \x7d from '@react-three/drei'\n")
      ⟨.code 0, 0⟩ := by
  have opened : Silent ⟨.code 0, 0⟩ "import \x7b " ⟨.code 0, 1⟩ :=
    rfl
  have names :
      ∀ name ∈ source.libraryNames,
        Silent ⟨.code 0, 1⟩ (name ++ ", ") ⟨.code 0, 1⟩ ∧
          Silent ⟨.code 0, 1⟩ (name ++ " ") ⟨.code 0, 1⟩ := by
    have cameras :
        ∀ name ∈ ["PerspectiveCamera", "OrthographicCamera"],
          Silent ⟨.code 0, 1⟩ (name ++ ", ") ⟨.code 0, 1⟩ ∧
            Silent ⟨.code 0, 1⟩ (name ++ " ") ⟨.code 0, 1⟩ :=
      List.forall_mem_cons.mpr ⟨⟨rfl, rfl⟩, List.forall_mem_singleton.mpr ⟨rfl, rfl⟩⟩
    unfold Source.libraryNames
    refine List.forall_mem_append.mpr ⟨List.forall_mem_append.mpr
      ⟨List.forall_mem_append.mpr ⟨List.forall_mem_singleton.mpr ⟨rfl, rfl⟩, ?_⟩, ?_⟩, ?_⟩
    · split
      · exact List.forall_mem_singleton.mpr ⟨rfl, rfl⟩
      · exact List.forall_mem_nil _
    · exact fun name member => cameras name (List.mem_filter.mp member).1
    · split
      · exact List.forall_mem_singleton.mpr ⟨rfl, rfl⟩
      · exact List.forall_mem_nil _
  have several : source.libraryNames ≠ [] := by
    simp [Source.libraryNames]
  have closed : Silent ⟨.code 0, 1⟩ "\x7d from '@react-three/drei'\n" ⟨.code 0, 0⟩ :=
    rfl
  have ending : " \x7d from '@react-three/drei'\n" = " " ++ "\x7d from '@react-three/drei'\n" := by
    decide
  have whole := silent_append opened (silent_append (silent_intercalate several
    (fun name member => (names name member).1) fun name member => (names name member).2) closed)
  rw [ending]
  simp only [String.append_assoc] at whole ⊢
  exact whole

/-- The types of the animations perform no call. -/
theorem silent_actionTypes
    (clips : List Clip) :
    Silent ⟨.code 0, 0⟩ (actionTypes clips) ⟨.code 0, 0⟩ := by
  unfold actionTypes
  split
  next => exact silent_empty _
  next animated =>
    have opened : Silent ⟨.code 0, 0⟩ "\ntype ActionName = " ⟨.code 0, 0⟩ :=
      rfl
    have bar : Silent ⟨.code 0, 0⟩ " | " ⟨.code 0, 0⟩ :=
      rfl
    have closed :
        Silent ⟨.code 0, 0⟩ "\ntype GLTFActions = Record<ActionName, THREE.AnimationAction>\n"
          ⟨.code 0, 0⟩ :=
      rfl
    have clip : ∀ part ∈ clips.map fun clip => Json.quotedText clip.name,
        Silent ⟨.code 0, 0⟩ part ⟨.code 0, 0⟩ := by
      intro part listed
      obtain ⟨clip, _, rfl⟩ := List.mem_map.mp listed
      exact silent_quotedText clip.name 0
    have filled : (clips.map fun clip => Json.quotedText clip.name) ≠ [] := by
      simpa using animated
    rw [String.append_assoc]
    exact silent_append opened (silent_intercalate filled
      (fun part listed => silent_append (clip part listed) bar)
      fun part listed => silent_append (clip part listed) closed)

/-- The type of what is loaded performs no call. -/
theorem silent_resultType
    (labels : Labels) :
    Silent ⟨.code 0, 0⟩ (resultType labels) ⟨.code 0, 0⟩ := by
  have opened : Silent ⟨.code 0, 0⟩ "type GLTFResult = GLTF & \x7b\n  nodes: \x7b\n" ⟨.code 0, 2⟩ :=
    rfl
  have between : Silent ⟨.code 0, 2⟩ "  \x7d\n  materials: \x7b\n" ⟨.code 0, 2⟩ :=
    rfl
  have closed : Silent ⟨.code 0, 2⟩ "  \x7d\n\x7d\n" ⟨.code 0, 0⟩ :=
    rfl
  have three : "THREE" ∈ ["THREE"] := List.mem_cons_self
  have nodes : Silent ⟨.code 0, 2⟩ _ ⟨.code 0, 2⟩ :=
    silent_passage (passes_declaredNodes labels three) Nat.le.refl
  have materials : Silent ⟨.code 0, 2⟩ _ ⟨.code 0, 2⟩ :=
    silent_passage (passes_declaredMaterials labels.graph three) Nat.le.refl
  exact silent_append (silent_append (silent_append (silent_append (silent_append opened nodes)
    between) materials) closed) (silent_actionTypes labels.graph.clips)

/-- The head of the module performs no call. -/
theorem silent_imports
    (source : Source) :
    Silent ⟨.code 0, 0⟩ source.imports ⟨.code 0, 0⟩ := by
  have three : Silent ⟨.code 0, 0⟩
      (if source.options.types then "import * as THREE from 'three'\n" else "") ⟨.code 0, 0⟩ := by
    cases source.options.types <;> rfl
  have react : Silent ⟨.code 0, 0⟩
      (if source.hasInstances then "import React, \x7b useRef, useMemo \x7d from 'react'\n"
        else "import React, \x7b useRef \x7d from 'react'\n") ⟨.code 0, 0⟩ := by
    cases source.hasInstances <;> rfl
  have result : Silent ⟨.code 0, 0⟩
      (if source.options.types then
        "import \x7b GLTF \x7d from 'three-stdlib'\n\n" ++ resultType source.labels
      else "") ⟨.code 0, 0⟩ := by
    split
    next =>
      have line : Silent ⟨.code 0, 0⟩ "import \x7b GLTF \x7d from 'three-stdlib'\n\n"
          ⟨.code 0, 0⟩ :=
        rfl
      exact silent_append line (silent_resultType source.labels)
    next => exact silent_empty _
  have whole := silent_append (silent_append (silent_append three react)
    (silent_libraryNames source)) result
  unfold Source.imports
  simp only [String.append_assoc] at whole ⊢
  exact whole

/-- The component that defines the instances loads the asset once. -/
theorem performs_instancedModel
    (fits : Fits source) :
    Performs ⟨.code 0, 0⟩ source.instancedModel
      [.loads (readable? (assetAddress source.fileName))] ⟨.code 0, 0⟩ := by
  have heading : Silent ⟨.code 0, 0⟩ (instancedHeading source.options.types) ⟨.code 0, 1⟩ := by
    cases source.options.types <;> rfl
  have table : Silent ⟨.code 0, 1⟩ ("  const " ++ braced " nodes " ++ " = ") ⟨.code 0, 1⟩ :=
    rfl
  have opened : Silent ⟨.code 0, 1⟩ ("  const instances = useMemo(\n" ++ "    () => (\x7b\n")
      ⟨.code 0, 4⟩ :=
    rfl
  have entries : Silent ⟨.code 0, 4⟩ source.instanceEntries ⟨.code 0, 4⟩ :=
    silent_passage (passes_instanceEntries (List.mem_singleton.mpr rfl) fits.entries) (by decide)
  have closed : Silent ⟨.code 0, 4⟩ ("    \x7d),\n" ++ "    [nodes]\n" ++ "  )\n") ⟨.code 0, 1⟩ :=
    rfl
  have drawn : Silent ⟨.code 0, 1⟩
      ("  return (\n" ++ "    <Merged meshes=" ++ braced "instances" ++ " " ++ braced "...props"
        ++ ">\n" ++ "      "
        ++ braced ("(instances) => <Model instances=" ++ braced "instances" ++ " />")
        ++ "\n" ++ "    </Merged>\n" ++ "  )\n") ⟨.code 0, 1⟩ := by
    cbv
  have ended : Silent ⟨.code 0, 1⟩ "\x7d\n" ⟨.code 0, 0⟩ :=
    rfl
  have returned : Silent ⟨.code 0, 1⟩ _ ⟨.code 0, 1⟩ :=
    silent_append (silent_append opened (silent_append entries closed)) drawn
  have lines : Performs ⟨.code 0, 1⟩ (instancedLines source)
      [.loads (readable? (assetAddress source.fileName))] ⟨.code 0, 1⟩ :=
    performs_append table.performs (performs_append (performs_typedLoad source) returned.performs)
  rw [instancedModel_eq]
  exact performs_append heading.performs (performs_append lines ended.performs)

/-- The component loads the asset once, and once more ahead of time. -/
theorem performs_model
    (fits : Fits source) :
    Performs ⟨.code 0, 0⟩ source.model
      [.loads (readable? (assetAddress source.fileName)),
        .preloads (readable? (assetAddress source.fileName))] ⟨.code 0, 0⟩ := by
  have heading : Silent ⟨.code 0, 0⟩ (modelHeading source) ⟨.code 0, 1⟩ := by
    unfold modelHeading Source.parameters
    cases source.hasInstances <;> cases source.options.types <;> rfl
  have group : Silent ⟨.code 0, 1⟩
      ("  const group = " ++ (if source.options.types then "useRef<THREE.Group>()" else "useRef()")
        ++ "\n") ⟨.code 0, 1⟩ := by
    cases source.options.types <;> rfl
  have tables : Silent ⟨.code 0, 1⟩
      ("  const "
        ++ braced (if source.labels.animated then " nodes, materials, animations "
          else " nodes, materials ")
        ++ " = ") ⟨.code 0, 1⟩ := by
    cases source.labels.animated <;> rfl
  have actions : Silent ⟨.code 0, 1⟩
      (if source.labels.animated then
        "  const " ++ braced " actions " ++ " = useAnimations"
          ++ (if source.options.types then "<GLTFActions>" else "") ++ "(animations, group)" ++ "\n"
      else "") ⟨.code 0, 1⟩ := by
    cases source.labels.animated <;> cases source.options.types <;> rfl
  have opened : Silent ⟨.code 0, 1⟩
      ("  return (\n" ++ "    <group ref=" ++ braced "group" ++ " " ++ braced "...props"
        ++ " dispose=" ++ braced "null" ++ ">\n") ⟨.code 0, 2⟩ :=
    rfl
  have body : Silent ⟨.code 0, 2⟩ source.body ⟨.code 0, 2⟩ := by
    refine silent_passage (fits.body (["nodes", "materials", "instances"] ++ source.cameras)
      ?_ ?_ ?_ ?_) Nat.le.refl
    · simp
    · simp
    · simp
    · exact fun camera listed => List.mem_append_right _ listed
  have closed : Silent ⟨.code 0, 2⟩ ("    </group>\n" ++ "  )\n") ⟨.code 0, 1⟩ :=
    rfl
  have ended : Silent ⟨.code 0, 1⟩ "\x7d\n" ⟨.code 0, 0⟩ :=
    rfl
  have returned : Silent ⟨.code 0, 1⟩ _ ⟨.code 0, 1⟩ :=
    silent_append actions (silent_append opened (silent_append body closed))
  have lines : Performs ⟨.code 0, 1⟩ (modelLines source)
      [.loads (readable? (assetAddress source.fileName))] ⟨.code 0, 1⟩ :=
    performs_append group.performs (performs_append tables.performs
      (performs_append (performs_typedLoad source) returned.performs))
  rw [model_eq]
  exact performs_append (performs_append heading.performs (performs_append lines ended.performs))
    (performs_preloadCall source)

/-- The calls of a module: each of its components loads the asset, and it is loaded ahead of time. -/
theorem hookCalls_text
    (fits : Fits source) :
    hookCalls source.text =
      List.replicate (if source.hasInstances then 2 else 1)
          (.loads (readable? (assetAddress source.fileName)))
        ++ [.preloads (readable? (assetAddress source.fileName))] := by
  have blank : Silent ⟨.code 0, 0⟩ "\n\n" ⟨.code 0, 0⟩ :=
    rfl
  have wrapper : Performs ⟨.code 0, 0⟩ (if source.hasInstances then source.instancedModel else "")
      (if source.hasInstances then [.loads (readable? (assetAddress source.fileName))] else [])
      ⟨.code 0, 0⟩ := by
    split
    next => exact performs_instancedModel fits
    next => exact (silent_empty _).performs
  have whole := performs_append blank.performs (performs_append (silent_imports source).performs
    (performs_append wrapper (performs_model fits))) []
  rw [List.append_nil] at whole
  rw [hookCalls, afterComment_text, whole]
  cases source.hasInstances <;> rfl

/--
A converted scene is loaded once or twice and loaded ahead once, always by the address
of the asset.
-/
theorem exists_hookCalls
    {fileName : String}
    {graph : SceneGraph}
    {options : Options}
    {text : String}
    (converted : (convert fileName graph options).result = .ok text) :
    ∃ times ∈ [1, 2],
      hookCalls text =
        List.replicate times (.loads (readable? (assetAddress fileName)))
          ++ [.preloads (readable? (assetAddress fileName))] := by
  obtain ⟨decided, elements, _, _, written, rfl⟩ := convert_spec converted
  have fits := fits_of_stands rfl (elementsOf_stands written) fileName bodyDepth
  refine ⟨_, ?_, hookCalls_text fits⟩
  split <;> simp

end Parts

end SceneMarkup.Component
