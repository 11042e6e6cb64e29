import Playpen.Text.Utf8

namespace Playpen.Base64

open Utf8 (Bytes)

def letters : List Char := "ABCDEFGHIJKLMNOPQRSTUVWXYZabcdefghijklmnopqrstuvwxyz0123456789+/".toList

def letter (n : Nat) : Char := letters.getD n 'A'

def value? (c : Char) : Option Nat := letters.idxOf? c

def group : Bytes → List Char
  | [a] => [letter (a.toNat / 4), letter (a.toNat % 4 * 16), '=', '=']
  | [a, b] =>
    [letter (a.toNat / 4), letter (a.toNat % 4 * 16 + b.toNat / 16), letter (b.toNat % 16 * 4), '=']
  | [a, b, c] =>
    [letter (a.toNat / 4), letter (a.toNat % 4 * 16 + b.toNat / 16),
      letter (b.toNat % 16 * 4 + c.toNat / 64), letter (c.toNat % 64)]
  | _ => []

def linesFrom (place : Nat) : Bytes → List Char
  | a :: b :: c :: rest =>
    group [a, b, c] ++
      (if place = 18 then '\n' :: linesFrom 0 rest else linesFrom (place + 1) rest)
  | [] => if place = 0 then [] else ['\n']
  | rest => group rest ++ ['\n']

def encode (data : Bytes) : List Char := linesFrom 0 data

inductive Fault
  | lone (count : Nat)
  | padding
deriving DecidableEq, Repr

def Fault.text : Fault → String
  | lone count =>
    s!"Invalid base64-encoded string: number of data characters ({count + 1}) cannot be 1 more than a multiple of 4"
  | padding => "Incorrect padding"

structure Partial where
  read : List Nat := []
  pads : Nat := 0

def bytesOf : List Nat → Bytes
  | [a, b] => [UInt8.ofNat (a * 4 + b / 16)]
  | [a, b, c] => [UInt8.ofNat (a * 4 + b / 16), UInt8.ofNat (b % 16 * 16 + c / 4)]
  | [a, b, c, d] =>
    [UInt8.ofNat (a * 4 + b / 16), UInt8.ofNat (b % 16 * 16 + c / 4), UInt8.ofNat (c % 4 * 64 + d)]
  | _ => []

def decodeFrom (groups : Nat) (p : Partial) : List Char → Except Fault Bytes
  | [] =>
    match p.read with
    | [] => .ok []
    | [_] => .error (.lone (4 * groups))
    | _ => .error .padding
  | c :: rest =>
    if c = '=' then
      if 2 ≤ p.read.length && 4 ≤ p.read.length + p.pads + 1 then .ok (bytesOf p.read)
      else decodeFrom groups { p with pads := if 2 ≤ p.read.length then p.pads + 1 else p.pads } rest
    else match value? c with
      | none => decodeFrom groups p rest
      | some v =>
        if p.read.length = 3 then (decodeFrom (groups + 1) {} rest).map (bytesOf (p.read ++ [v]) ++ ·)
        else decodeFrom groups { read := p.read ++ [v] } rest

def decode (s : List Char) : Except Fault Bytes := decodeFrom 0 {} s

end Playpen.Base64
