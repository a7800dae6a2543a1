import SvServer.Path.Normal
import SvServer.Uri.Host

/-!
Reading URIs. A URI names a local file when its scheme is `file` and it has no host, or the local
one. Any other URI is accepted as long as it is well formed.
-/

namespace SvServer.Uri

/-- Why a text is no URI. -/
inductive ParseError where
  | noScheme
  | emptyHost
  | invalidHost
  | invalidPort
deriving DecidableEq, Repr

/-- A well-formed URI, as far as the server cares. -/
inductive Target where
  | file (path : Path)
  /-- Something that is not a local file -/
  | other
deriving BEq, Repr

/-! ## Characters -/

/-- ASCII control characters and the space. -/
def isControlOrSpace (c : Char) : Bool := c.toNat ≤ 0x20

/-- Characters that do not count wherever they stand. -/
def isTabOrNewline (c : Char) : Bool := c = '\t' || c = '\n' || c = '\r'

/-- The text without blanks and control characters at its ends. -/
def trim (text : String) : List Char :=
  let begun := text.toList.dropWhile isControlOrSpace
  (begun.reverse.dropWhile isControlOrSpace).reverse

/-- The characters that count. -/
def visible (text : List Char) : List Char := text.filter fun c => !isTabOrNewline c

/-- Characters of a scheme. -/
def isSchemeChar (c : Char) : Bool := c.isAlphanum || c = '+' || c = '-' || c = '.'

/-- The scheme in lower case, and what follows its colon. -/
def scheme? (text : List Char) : Option (String × List Char) :=
  let name := text.takeWhile fun c => isSchemeChar c || isTabOrNewline c
  match visible name, text.drop name.length with
  | first :: more, ':' :: rest =>
    if first.isAlpha then some (String.ofList ((first :: more).map Char.toLower), rest) else none
  | _, _ => none

/-- Schemes whose URIs have a host and take a backslash for a slash. -/
def isSpecial (scheme : String) : Bool :=
  ["http", "https", "ws", "wss", "ftp", "file"].contains scheme

/-- Separators of the schemes that have a host. -/
def isSlash (c : Char) : Bool := c = '/' || c = '\\'

/-- The text up to a query or a fragment. -/
def beforeQuery (text : List Char) : List Char := text.takeWhile fun c => c ≠ '?' && c ≠ '#'

/-! ## Paths of file URIs -/

/-- A drive letter with its mark. -/
def isDriveLetter (segment : List Char) : Bool :=
  match segment with
  | [letter, mark] => letter.isAlpha && (mark = ':' || mark = '|')
  | _ => false

/-- Segments that stand for the same folder. -/
def isSingleDot (segment : List Char) : Bool :=
  [".", "%2e"].contains (String.ofList segment).toLower

/-- Segments that stand for the folder above. -/
def isDoubleDot (segment : List Char) : Bool :=
  ["..", "%2e.", ".%2e", "%2e%2e"].contains (String.ofList segment).toLower

/-- The segments between slashes of either kind. -/
def splitSegments : List Char → List (List Char)
  | [] => [[]]
  | c :: rest =>
    if isSlash c then [] :: splitSegments rest
    else match splitSegments rest with
      | [] => [[c]]
      | first :: more => (c :: first) :: more

/-- Whether a tab or a line break comes right after so many characters that count. -/
def hasGap : Nat → List Char → Bool
  | _, [] => false
  | 0, c :: _ => isTabOrNewline c
  | count + 1, c :: rest => hasGap (if isTabOrNewline c then count + 1 else count) rest

/-- A drive letter that a tab or a line break sets apart from the rest of its segment. -/
def cutDrive? (segment : List Char) : Option (List Char × List Char) :=
  match visible segment with
  | letter :: ':' :: c :: rest =>
    if letter.isAlpha && hasGap 2 segment then some ([letter, ':'], c :: rest) else none
  | _ => none

/-- A way through folders. -/
structure Walk where
  /-- The segments that were not left again, last one first -/
  kept : List (List Char) := []
  /-- Whether the way began with a drive letter -/
  onDrive : Bool := false

/-- One more segment. A drive letter is never left, and at the start it gets a colon for its
mark. -/
def Walk.push (walk : Walk) (segment : List Char) : Walk :=
  let shown := visible segment
  match walk.kept, cutDrive? segment with
  | [], some (drive, rest) => { walk with kept := [rest, drive] }
  | kept, _ =>
    if isDoubleDot shown then
      match kept with
      | [] => walk
      | last :: before => if isDriveLetter last then walk else { walk with kept := before }
    else if isSingleDot shown then walk
    else if kept.isEmpty && isDriveLetter shown then ⟨[shown.take 1 ++ [':']], true⟩
    else { walk with kept := shown :: kept }

/-- The way that the path part of a file URI describes. -/
def walk (text : List Char) : Walk := (splitSegments text).foldl Walk.push {}

/-- Where a way leads; nowhere if its name is not UTF-8. -/
def Walk.target (walk : Walk) : Target :=
  match decode? (walk.kept.reverse.flatMap fun segment => '/' :: segment) with
  | some decoded => .file (Path.ofString ("/" ++ decoded)).normalize
  | none => .other

/-- What follows a slash at the start of a text. -/
def afterSlash? : List Char → Option (List Char)
  | [] => none
  | c :: rest =>
    if isTabOrNewline c then afterSlash? rest else if isSlash c then some rest else none

/-- A URI with scheme `file`, from what follows the colon. A path that follows an empty or local
host begins with an empty segment, so that it does not begin with a drive letter; a drive letter
after any other host makes up for that host. -/
def readFile (text : List Char) : Except ParseError Target :=
  let text := beforeQuery text
  match (afterSlash? text).bind afterSlash? with
  | none => .ok (walk ((afterSlash? text).getD text)).target
  | some rest =>
    let begun := rest.takeWhile fun c => !isSlash c
    let path := rest.drop begun.length
    let host := visible begun
    if isDriveLetter host then .ok (walk rest).target
    else if host.isEmpty then .ok (walk path).target
    else match host? host with
      | none => .error .invalidHost
      | some "localhost" => .ok (walk path).target
      | some _ =>
        let found := walk ((afterSlash? path).getD path)
        .ok (if found.onDrive then found.target else .other)

/-! ## Other URIs -/

/-- Whether what follows a host is a port or nothing. A port may be empty, and a backslash ends
it. -/
def isPortPart (text : List Char) : Bool :=
  match text with
  | ':' :: rest =>
    let digits := rest.takeWhile (· ≠ '\\')
    digits.all Char.isDigit && ((String.ofList digits).toNat?.getD 0) ≤ 65535
  | _ => text.isEmpty

/-- The part of an authority after its user information. -/
def afterUserInfo (authority : List Char) : List Char :=
  (authority.reverse.takeWhile (· ≠ '@')).reverse

/-- The length of a host; colons inside of brackets belong to it. -/
def hostLength : (bracketed : Bool) → List Char → Nat
  | _, [] => 0
  | bracketed, c :: rest =>
    if c = ':' && !bracketed then 0
    else 1 + hostLength (if c = '[' then true else if c = ']' then false else bracketed) rest

/-- A URI with an authority, from what follows the slashes. User information needs a host, unless
the text ends with the mark of an empty one. -/
def readAuthority (special : Bool) (text : List Char) : Except ParseError Target :=
  let authority := (beforeQuery text).takeWhile fun c => !(c = '/' || (special && c = '\\'))
  let place := afterUserInfo authority
  let length := hostLength false place
  let host := place.take length
  let port := place.drop length
  if host.isEmpty then
    let named := authority.contains '@' && text ≠ ['@']
    if special || port ≠ [] || named then .error .emptyHost else .ok .other
  else
    let known := if special then (host? host).isSome else isOpaqueHost host
    if !known then .error .invalidHost
    else if isPortPart port then .ok .other
    else .error .invalidPort

/-- Reads a URI. -/
def read (text : String) : Except ParseError Target :=
  match scheme? (trim text) with
  | none => .error .noScheme
  | some (scheme, rest) =>
    if scheme = "file" then readFile rest
    else if isSpecial scheme then readAuthority true ((visible rest).dropWhile isSlash)
    else match visible rest with
      | '/' :: '/' :: more => readAuthority false more
      | _ => .ok .other

/-- The path of a text that is a URI of a local file. -/
def path? (text : String) : Option Path :=
  match read text with
  | .ok (.file path) => some path
  | _ => none

end SvServer.Uri
