import DocSelect.Eval.Function
import DocSelect.Text.Base64

/-!
# Encodings and files

Base64, documents inside texts, and files.
-/
namespace DocSelect.Builtin

open DocSelect.Action (ask new build refuse)

def textBytes (s : String) : List Nat := s.toUTF8.toList.map UInt8.toNat

def bytesText? (bytes : List Nat) : Option String :=
  String.fromUTF8? ⟨(bytes.map UInt8.ofNat).toArray⟩

def base64e : Function := .unary "base64e" fun _ argument => do
  let text ← ask (·.string? argument)
  new (.string (String.ofList (Base64.encode (textBytes text))))

def base64d : Function := .unary "base64d" fun _ argument => do
  let text ← ask (·.string? argument)
  match Base64.decode text.toList with
  | none => refuse .notBase64
  | some bytes =>
    match bytesText? bytes with
    | none => refuse .notText
    | some decoded => new (.string decoded)

def parse : Function := .binary "parse" fun name text => do
  match Format.ofName? (← ask (·.string? name)) with
  | .error e => throw (.format e)
  | .ok format =>
    match format.read (← ask (·.string? text)) with
    | .error e => throw (.format e)
    | .ok content => build content

def readFile (files : FileSystem) : Function := .unary "readFile" fun _ argument => do
  match files (← ask (·.string? argument)) with
  | .ok text => new (.string text)
  | .error e => throw (.file e)

def encodings (files : FileSystem) : List Function := [base64e, base64d, parse, readFile files]

end DocSelect.Builtin
