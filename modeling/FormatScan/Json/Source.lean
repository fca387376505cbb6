import FormatScan.Json.Token

/-!
# JSON texts as they are written

A JSON text is read into a tree that keeps what the text says: members in their
order, repeated keys, and strings or numbers that have no value. Reading is one
pass over the tokens with a stack of the containers that are still open. The
value of a tree exists when all its strings and numbers have one and containers
are not nested too deeply; members that nobody asks for need no value.
-/

namespace FormatScan.Json

/-- A JSON text as a tree. -/
inductive Source where
  /-- One of the three words. -/
  | word (value : Json)
  /-- A number, if it has a value. -/
  | number (value : Option Json)
  /-- A string, if it consists of characters. -/
  | string (value : Option String)
  /-- A list of trees. -/
  | array (items : List Source)
  /-- Keys with their trees, in the order of the text. -/
  | object (members : List (Option String × Source))

namespace Source

/-- A container that is still open, in front of its next item. -/
inductive Frame where
  /-- An array with the items so far, the last one first. -/
  | array (items : List Source)
  /-- An object with the members so far, the last one first, and the key of the
  member to come. -/
  | object (members : List (Option String × Source)) (key : Option String)

/-- What a reader waits for. -/
inductive Reader where
  /-- A value. -/
  | awaitValue (stack : List Frame)
  /-- The first item of an array, or its closing bracket. -/
  | awaitItem (stack : List Frame)
  /-- The first key of an object, or its closing brace. -/
  | awaitMember (stack : List Frame)
  /-- The next key of an object. -/
  | awaitKey (members : List (Option String × Source)) (stack : List Frame)
  /-- The colon behind a key. -/
  | awaitColon (members : List (Option String × Source)) (key : Option String)
    (stack : List Frame)
  /-- What may follow a value that is complete. -/
  | complete (tree : Source) (stack : List Frame)

/-- Read the first token of a value. -/
def Reader.begin? (stack : List Frame) : Token → Option Reader
  | .word value => some (.complete (.word value) stack)
  | .number value => some (.complete (.number value) stack)
  | .string value => some (.complete (.string value) stack)
  | .openArray => some (.awaitItem stack)
  | .openObject => some (.awaitMember stack)
  | _ => none

/-- Read one token. -/
def Reader.step : Reader → Token → Option Reader
  | .awaitValue stack, token => begin? stack token
  | .awaitItem stack, .closeArray => some (.complete (.array []) stack)
  | .awaitItem stack, token => begin? (.array [] :: stack) token
  | .awaitMember stack, .closeObject => some (.complete (.object []) stack)
  | .awaitMember stack, .string key => some (.awaitColon [] key stack)
  | .awaitKey members stack, .string key => some (.awaitColon members key stack)
  | .awaitColon members key stack, .colon => some (.awaitValue (.object members key :: stack))
  | .complete tree (.array items :: stack), .comma =>
    some (.awaitValue (.array (tree :: items) :: stack))
  | .complete tree (.array items :: stack), .closeArray =>
    some (.complete (.array (tree :: items).reverse) stack)
  | .complete tree (.object members key :: stack), .comma =>
    some (.awaitKey ((key, tree) :: members) stack)
  | .complete tree (.object members key :: stack), .closeObject =>
    some (.complete (.object ((key, tree) :: members).reverse) stack)
  | _, _ => none

/-- Read a list of tokens. -/
def Reader.run (reader : Reader) : List Token → Option Reader
  | [] => some reader
  | token :: rest =>
    match reader.step token with
    | some next => next.run rest
    | none => none

/-- The tree of a JSON text. -/
def parse? (text : String) : Option Source :=
  match tokens? text.toList with
  | none => none
  | some tokens =>
    match (Reader.awaitValue []).run tokens with
    | some (.complete tree []) => some tree
    | _ => none

mutual

/-- The value of a tree whose containers are nested at most `depth` deep. -/
def value? (depth : Nat) : Source → Option Json
  | .word value => some value
  | .number value => value
  | .string value => value.map Json.string
  | .array items =>
    match depth with
    | 0 => none
    | depth + 1 => (values? depth items).map Json.array
  | .object members =>
    match depth with
    | 0 => none
    | depth + 1 => (memberValues? depth members).map Json.ofMembers

/-- The values of a list of trees. -/
def values? (depth : Nat) : List Source → Option (List Json)
  | [] => some []
  | item :: rest =>
    match value? depth item, values? depth rest with
    | some value, some values => some (value :: values)
    | _, _ => none

/-- The values of a list of members. -/
def memberValues? (depth : Nat) : List (Option String × Source) → Option (List (String × Json))
  | [] => some []
  | (key, item) :: rest =>
    match key, value? depth item, memberValues? depth rest with
    | some key, some value, some members => some ((key, value) :: members)
    | _, _, _ => none

end

/-- How deep the containers of a text may be nested. -/
def nestingLimit : Nat := 127

end Source

/-- The value of a JSON text. -/
def parse? (text : String) : Option Json :=
  (Source.parse? text).bind (Source.value? Source.nestingLimit)

end FormatScan.Json
