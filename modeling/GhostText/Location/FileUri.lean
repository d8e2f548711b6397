import GhostText.Location.Path
import GhostText.Text.Utf8

/-!
# File URIs

A file is named to the server by a URI with the scheme `file`: the characters that have a meaning of
their own in a URI, and control characters, are written as a percent sign and two hexadecimal
digits; spaces and all beyond ASCII stay. Reading one takes the path alone and turns the percent
signs back. A percent sign without two digits after it makes every percent sign of the path stand
for itself.
-/

namespace GhostText.FileUri

/-- The characters of ASCII that stay as they are in the path of a URI. -/
def isPlain (c : Char) : Bool :=
  c.isAlphanum || c.toNat > 0x7f || " -._~!$&'()*+,;=:@/".toList.contains c

def upperHex (n : Nat) : List Char :=
  let ds := (Nat.toDigits 16 n).map Char.toUpper
  List.replicate (2 - ds.length) '0' ++ ds

def escapeChar (c : Char) : Text := if isPlain c then [c] else '%' :: upperHex c.toNat

def isHostChar (c : Char) : Bool := c.isAlphanum || c = '-' || c = '_' || c = '.'

/-- The URI of a path. Behind two slashes the first name is the name of a host, if it can be one. -/
def ofPath (path : String) : String :=
  let t := Path.absolute path.toList
  let uri := match t with
    | '/' :: '/' :: rest =>
      let host := rest.takeWhile (· != '/')
      if host.all isHostChar && host.head? != some '.' then
        host.map Char.toLower ++ (rest.dropWhile (· != '/')).flatMap escapeChar
      else t.flatMap escapeChar
    | t => t.flatMap escapeChar
  "file://" ++ String.ofList uri

def isHex (c : Char) : Bool := c.isDigit || ('a' ≤ c && c ≤ 'f') || ('A' ≤ c && c ≤ 'F')

def hexDigit (c : Char) : Nat :=
  if c.isDigit then c.toNat - 48 else if 'a' ≤ c then c.toNat - 87 else c.toNat - 55

/-- Two digits follow every percent sign. -/
def wellEscaped : Text → Bool
  | [] => true
  | '%' :: a :: b :: t => isHex a && isHex b && wellEscaped t
  | '%' :: _ => false
  | _ :: t => wellEscaped t

/-- The bytes of escapes as characters; a byte that belongs to none becomes U+FFFD. -/
def bytesToText (bs : List UInt8) : Text :=
  (Text.Utf8.fragments bs).flatMap fun f =>
    match f with
    | .char c => [c]
    | .damaged bytes _ => bytes.map fun _ => Char.ofNat 0xfffd

/-- Turns escapes back into characters; the bytes of escapes that stand together are read together,
and `bytes` are those read last. -/
def unescapeFrom (bytes : List UInt8) : Text → Text
  | [] => bytesToText bytes
  | '%' :: a :: b :: t =>
    unescapeFrom (bytes ++ [UInt8.ofNat (16 * hexDigit a + hexDigit b)]) t
  | c :: t => bytesToText bytes ++ c :: unescapeFrom [] t

def unescape (t : Text) : Text := if wellEscaped t then unescapeFrom [] t else t

/-- What follows the scheme `file`, written in letters of either case. -/
def afterScheme? (uri : Text) : Option Text :=
  match uri with
  | f :: i :: l :: e :: ':' :: rest =>
    if [f, i, l, e].map Char.toLower = ['f', 'i', 'l', 'e'] then some rest else none
  | _ => none

/-- The host in an authority, without a user before it and a port behind it. -/
def hostOf (authority : Text) : Text :=
  let host := (Text.afterLast? ['@'] authority).getD authority
  (host.takeWhile (· != ':')).map Char.toLower

/-- The path of a file URI; any other text stays as it is. -/
def toPath (uri : String) : String :=
  match afterScheme? uri.toList with
  | none => uri
  | some rest =>
    let t := rest.takeWhile fun c => c != '?' && c != '#'
    match t with
    | '/' :: '/' :: t =>
      let host := hostOf (t.takeWhile (· != '/'))
      let path := unescape (t.dropWhile (· != '/'))
      String.ofList (if host.isEmpty then path else '/' :: '/' :: host ++ path)
    | t => String.ofList (unescape t)

end GhostText.FileUri
