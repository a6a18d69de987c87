import TaskEngine.Json.Value
import TaskEngine.OrderedMap
import TaskEngine.Text.Pattern
import TaskEngine.Text.Space

/-!
# Redaction

Secrets are kept out of what is shown.  Texts are redacted by seven rules, one after
another: each describes places where a secret stands behind something that announces
it, and a marker takes the place of the secret.  Values that stand under a
name that suggests a credential are replaced as a whole; all other texts inside a
value are redacted one by one.

## Main definitions

* `redactionRules` — the rules, in the order in which they are applied.
* `redactBy` — a text without the secrets of one rule.
* `redactText` — a text without secrets.
* `isSensitiveKey` — whether a name suggests a credential.
* `redactValue`, `redactOptions` — values and options that can be shown.
-/

namespace TaskEngine

/-! ### Pieces that announce or hold secrets -/

namespace Piece

/-- The longest stretch of a kind of character, if it ends in one of the given words, in any
case of letters. -/
def runEndingIn (kind : Char → Bool) (words : List String) : Piece where
  split text :=
    let taken := text.takeWhile kind
    if words.any fun small => (dropWord sameLetter small.toList.reverse taken.reverse).isSome then
      some (taken, text.dropWhile kind)
    else none
  joined h := by
    dsimp only at h
    split at h
    · simp only [Option.some.injEq, Prod.mk.injEq] at h
      rw [← h.1, ← h.2, List.takeWhile_append_dropWhile]
    · simp at h

/-- A text that does not start with white space, up to its last character that is none. -/
def upToTrailingSpace : Piece where
  split text :=
    if text.head?.any (!isSpace ·) then
      some (trimEnd text, (text.reverse.takeWhile isSpace).reverse)
    else none
  joined {text taken rest} h := by
    split at h
    · simp only [Option.some.injEq, Prod.mk.injEq] at h
      rw [← h.1, ← h.2, trimEnd, trimStart, ← List.reverse_append,
        List.takeWhile_append_dropWhile, List.reverse_reverse]
    · simp at h

end Piece

open Piece

/-! ### Kinds of characters -/

/-- An ASCII letter or digit. -/
def isAsciiAlphanum (c : Char) : Bool := c.isAlphanum

/-- An ASCII letter or digit, or an underscore. -/
def isNameChar (c : Char) : Bool := c.isAlphanum || c == '_'

/-- A character of a name in any case of letters: the long s and the kelvin sign are capitals
or small forms of letters too. -/
def isFoldedNameChar (c : Char) : Bool := isNameChar c || c == '\u017f' || c == '\u212a'

/-- A character of a bearer token in any case of letters. -/
def isBearerChar (c : Char) : Bool :=
  c.isAlphanum || "-._~+/\u017f\u212a".toList.contains c

/-- A character of a session identifier. -/
def isSessionChar (c : Char) : Bool := c.isAlphanum || c == '.' || c == '_'

/-- A character of a field that white space, a comma or a semicolon ends. -/
def isFieldChar (c : Char) : Bool := !isSpace c && c != ',' && c != ';'

/-- A character that is not white space. -/
def isSolid (c : Char) : Bool := !isSpace c

/-! ### The rules -/

/-- White space, perhaps none. -/
def spaces : Piece := many isSpace

/-- Characters that are not white space. -/
def solid : Piece := atLeastOne isSolid

/-- The header `Authorization:` announces the rest of the text. -/
def authorizationRule : Pattern where
  startsWord := false
  head := (word "authorization:").followedBy (atLeastOne isSpace)
  value := upToTrailingSpace

/-- The word `Bearer` announces a token. -/
def bearerRule : Pattern where
  startsWord := true
  head := (word "bearer").followedBy (atLeastOne isSpace)
  value := (atLeastOne isBearerChar).followedBy (many (· == '='))

/-- A name that ends in `KEY`, `TOKEN`, `SECRET` or `PASSWORD` and an equals sign announce a
value. -/
def assignmentRule : Pattern where
  startsWord := false
  head := (runEndingIn isFoldedNameChar ["key", "token", "secret", "password"]).followedBy
    (spaces.followedBy ((one (· == '=')).followedBy spaces))
  value := solid

/-- The name of a token or client secret and a colon or equals sign announce a field. -/
def oauthRule : Pattern where
  startsWord := false
  head := ((word "access_token").orElse ((word "refresh_token").orElse (word "client_secret"))).followedBy
    (spaces.followedBy ((one fun c => c == ':' || c == '=').followedBy spaces))
  value := atLeastOne isFieldChar

/-- `DATABASE_URL=` announces an address. -/
def databaseRule : Pattern where
  startsWord := false
  head := word "database_url="
  value := solid

/-- Access tokens of a code host start with `ghp_` and the like and go on for at least 22
characters. -/
def codeHostRule : Pattern where
  startsWord := false
  head := (((literal "gh").followedBy (one ("oprsu".toList.contains ·))).orElse
    (literal "github_pat")).followedBy (literal "_")
  value := run isNameChar 22 none

/-- Sessions of an org start with its identifier, `00D` and 12 to 15 more characters, and an
exclamation mark. -/
def orgSessionRule : Pattern where
  startsWord := false
  head := (literal "00D").followedBy ((run isAsciiAlphanum 12 (some 15)).followedBy (literal "!"))
  value := atLeastOne isSessionChar

/-- The rules, in the order in which they are applied. -/
def redactionRules : List Pattern :=
  [authorizationRule, bearerRule, assignmentRule, oauthRule, databaseRule, codeHostRule,
    orgSessionRule]

/-- What stands in place of a secret. -/
def redactionMarker : List Char := "[REDACTED]".toList

/-- A segment without its secret: what announces it is kept. -/
def Segment.hidden : Segment → List Char
  | .plain c => [c]
  | .place head _ => head ++ redactionMarker

/-- The text without the secrets that a rule describes. -/
def redactBy (rule : Pattern) (text : List Char) : List Char :=
  (rule.segments text).flatMap Segment.hidden

/-- The characters of a text without secrets. -/
def redactChars (text : List Char) : List Char :=
  redactionRules.foldl (fun text rule => redactBy rule text) text

/-- A text without secrets. -/
def redactText (text : String) : String := String.ofList (redactChars text.toList)

/-! ### Names -/

/-- An underscore or a hyphen, or nothing. -/
def joint : Piece := optional fun c => c == '_' || c == '-'

/-- The words in a name that suggest a credential. -/
def sensitiveWords : List Piece :=
  [word "password", word "passphrase", word "secret", word "token",
    (word "api").followedBy (joint.followedBy (word "key")),
    (word "private").followedBy (joint.followedBy (word "key")),
    word "refresh",
    (word "session").followedBy (joint.followedBy (word "id"))]

/-- Whether a name suggests that a credential is kept under it. -/
def isSensitiveKey (key : String) : Bool := sensitiveWords.any fun piece => piece.occurs key.toList

/-! ### Values -/

/-- What stands in place of a value under a sensitive name. -/
def redactedValue : Value := .string (String.ofList redactionMarker)

mutual

/-- A value that can be shown. -/
def redactValue : Value → Value
  | .string text => .string (redactText text)
  | .array items => .array (redactItems items)
  | .object fields => .object (redactFields fields)
  | value => value

/-- The items of a list that can be shown. -/
def redactItems : List Value → List Value
  | [] => []
  | item :: items => redactValue item :: redactItems items

/-- The fields of an object that can be shown. -/
def redactFields : List (String × Value) → List (String × Value)
  | [] => []
  | (key, value) :: fields =>
    (key, if isSensitiveKey key then redactedValue else redactValue value) :: redactFields fields

end

/-- Options that can be shown. -/
def redactOptions (options : OrderedMap Value) : OrderedMap Value :=
  options.mapValues fun key value =>
    if isSensitiveKey key then redactedValue else redactValue value

end TaskEngine
