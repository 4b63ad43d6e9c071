import Mathlib.Data.Bool.AllAny
import TinyWifi.Lib.Expiring
import TinyWifi.Lib.Text

/-! The sessions of `auth.rs`: tokens in memory, each good for a day, and the cookie that carries
one. -/

namespace TinyWifi

open Text

def sessionCookie : Str := "tw_sess".toList

def sessionTtl : Nat := 86400 * 1000000000

abbrev Sessions := Str → Option Nat

def newSessions : Sessions := fun _ => none

def hexByte (b : UInt8) : Str := [Nat.digitChar (b.toNat / 16), Nat.digitChar (b.toNat % 16)]

def sessionToken (bytes : Vector UInt8 32) : Str := bytes.toList.flatMap hexByte

def sessionCreate (sessions : Sessions) (bytes : Vector UInt8 32) (now : Nat) : Str × Sessions :=
  (sessionToken bytes, Function.update sessions (sessionToken bytes) (some now))

def sessionValid (sessions : Sessions) (token : Str) (now : Nat) : Bool × Sessions :=
  Expiring.check sessionTtl sessions token now

def sessionRemove (sessions : Sessions) (token : Str) : Sessions :=
  Function.update sessions token none

def stripPrefix : Str → Str → Option Str
  | [], s => some s
  | _ :: _, [] => none
  | c :: rest, d :: s => if c = d then stripPrefix rest s else none

abbrev HeaderValue := List UInt8

def isVisibleAscii (b : UInt8) : Bool := 32 ≤ b && b < 127 || b = 9

/-- A header with any other byte is not read as a text. -/
def HeaderValue.toStr (value : HeaderValue) : Option Str :=
  if value.all isVisibleAscii then some (value.map fun b => Char.ofNat b.toNat) else none

def extractSessionCookie (cookie : HeaderValue) : Option Str := do
  let s ← cookie.toStr
  (s.splitOn ';').findSome? fun part => stripPrefix (sessionCookie ++ ['=']) (trim part)

def headerValue (text : Str) : HeaderValue := text.flatMap String.utf8EncodeChar

def cookiePair (pair : Str × Str) : Str := pair.1 ++ '=' :: pair.2

def cookieHeader (pairs : List (Str × Str)) : HeaderValue :=
  headerValue (join "; ".toList (pairs.map cookiePair))

end TinyWifi
