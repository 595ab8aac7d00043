import LeaseQueue.Json.Reader
import LeaseQueue.Json.Writer
/-! Digests: content hashes of rendered images, opaque to this library, and their stored form. -/
namespace LeaseQueue

structure Digest where
  text : String
deriving DecidableEq

namespace Digest

/-- A list of digests as compact JSON. -/
def encodeList (digests : List Digest) : String := Json.writeList (digests.map (·.text))

def decodeList (text : String) : Except Json.Problem (List Digest) :=
  (Json.readAll (Json.readList Json.readString) text).map fun texts => texts.map Digest.mk

/-- The digests in ascending order, each once. -/
def sortedUnique (digests : List Digest) : List Digest :=
  (digests.mergeSort fun a b => !decide (b.text < a.text)).eraseReps

end Digest

end LeaseQueue
