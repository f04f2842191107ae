import KeyTree.Hash.Sha2
/-!
Keyed hashing by HMAC over any hash function.
-/

set_option autoImplicit false
set_option relaxedAutoImplicit false

namespace KeyTree

/-- The HMAC of a message for a hash function with blocks of `block` bytes.  A key longer than a
block is hashed first; every key is filled up with zeros to one block. -/
def hmac {n : Nat} (hash : Bytes → Octets n) (block : Nat) (key message : Bytes) : Octets n :=
  let short := if block < key.length then (hash key).toList else key
  let full := short ++ List.replicate (block - short.length) 0
  let inner := hash (full.map (· ^^^ 0x36) ++ message)
  hash (full.map (· ^^^ 0x5c) ++ inner.toList)

def hmacSha256 (key message : Bytes) : Octets 32 :=
  hmac sha256 64 key message

def hmacSha512 (key message : Bytes) : Octets 64 :=
  hmac sha512 128 key message

end KeyTree
