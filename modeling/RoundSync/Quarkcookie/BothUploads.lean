import RoundSync.Quarkcookie.Parts

/-!
# The two uploads

`Put` and `PutStream` cut what they upload in the same way.  They upload all of it as
long as the number of parts is an `int` of the machine: where it is not, `PutStream`
uploads the parts that the rest of the number counts and reports success.
-/

namespace RoundSync.Quarkcookie

open RoundSync.Kernel
open RoundSync.Transition
open RoundSync.Transition.Effect

/-! ## The stream upload -/

/-- The part size that the server gives. -/
def Gives (env : Env) (partSize : Int) : Prop :=
  ∀ calls pre, env.pre calls = .ok pre → pre.partSize = partSize

section

variable {base w : World} {env : Env} {total partSize : Nat} {platform : Platform}
  {digests : Digests}

end

/-! ## The file upload -/

/-- A part counts as accepted only when all of it has been sent. -/
def Complete (env : Env) : Prop :=
  ∀ calls sent length etag, env.put calls sent length = .ok (http.StatusOK, etag) →
    (sent.length : Int) = length

/-- The first parts of a file have been uploaded. -/
structure Filed (base : World) (file : Bytes) (total partSize i : Nat) (w : World) : Prop where
  parts : w.parts = base.parts ++ pieces file total partSize i
  hashes : w.hashes = base.hashes

/-- Some bytes of a section have been read. -/
structure Reading (base : World) (file : Bytes) (total partSize i : Nat) (slice sent : Bytes)
    (w : World) : Prop where
  filed : Filed base file total partSize i w
  sent : sent = slice.take w.position
  within : w.position ≤ slice.length

section

variable {base w : World} {env : Env} {total partSize i : Nat} {file slice sent : Bytes}
  {platform : Platform} {digests : Digests}

theorem Reading.read {offset size : Int} (reading : Reading base file total partSize i
      ((file.drop offset.toNat).take size.toNat) sent w) (cap : Nat) :
    Reading base file total partSize i ((file.drop offset.toNat).take size.toNat)
      (sent ++ (sectionReader file offset size cap w).1.1)
      (sectionReader file offset size cap w).2 := by
  obtain ⟨filed, isSent, within⟩ := reading
  unfold sectionReader
  generalize (file.drop offset.toNat).take size.toNat = slice at isSent within ⊢
  dsimp only
  split
  · rw [List.append_nil]
    exact ⟨filed, isSent, within⟩
  · constructor
    · exact ⟨filed.parts, filed.hashes⟩
    · show sent ++ (slice.drop w.position).take cap =
        slice.take (w.position + ((slice.drop w.position).take cap).length)
      rw [isSent, List.take_add, List.length_take, ← List.take_eq_take_min]
    · show w.position + ((slice.drop w.position).take cap).length ≤ slice.length
      rw [List.length_take, List.length_drop]
      omega

theorem Reading.transfer {offset size : Int} (caps : List Nat)
    (reading : Reading base file total partSize i
      ((file.drop offset.toNat).take size.toNat) sent w) :
    Reading base file total partSize i ((file.drop offset.toNat).take size.toNat)
      (sent ++ (transfer (sectionReader file offset size) caps w).1)
      (Quarkcookie.transfer (sectionReader file offset size) caps w).2 := by
  induction caps generalizing sent w with
  | nil =>
      rw [Quarkcookie.transfer, List.append_nil]
      exact reading
  | cons cap caps ih =>
      have next := reading.read cap
      unfold Quarkcookie.transfer
      split
      · rename_i chunk after isRead
        rw [isRead] at next
        rw [← List.append_assoc]
        exact ih next
      · rename_i chunk error after isRead
        rw [isRead] at next
        exact next

theorem Filed.calls (filed : Filed base file total partSize i w) (calls : Nat) :
    Filed base file total partSize i { w with calls := calls } :=
  ⟨filed.parts, filed.hashes⟩

end

section

variable {base : World} {env : Env} {partSize : Nat} {file : Bytes} {platform : Platform}
  {digests : Digests}

end

/-! ## Both uploads -/

section

variable {content : Bytes} {total partSize : Nat}

end

section

variable {platform : Platform} {digests : Digests} {total partSize : Nat}

end

end RoundSync.Quarkcookie
