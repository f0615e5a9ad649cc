/-
The texts of digests.

A digest is kept in a file, and read back without the white space at its ends. Nothing is lost
in this: a digest is never blank, and no character of it is white space, neither of the hash
of migrations nor of the word for migrations that are not there (`isSolid_digest`).
-/
import Schemata.Cache.Layout
import Schemata.Proofs.Steps
import Schemata.Text.Blank

namespace Schemata

namespace Text

/-- A text that is not blank and holds no white space. -/
structure IsSolid (s : String) : Prop where
  nonempty : s ≠ ""
  solid : ∀ c ∈ s.toList, isBlank c = false

namespace IsSolid

variable {s : String}

theorem stripped_eq (h : IsSolid s) : stripped s = s := by
  rw [stripped, trimBlank, trim_eq_self h.solid, String.ofList_toList]

theorem noReturn (h : IsSolid s) : '\r' ∉ s.toList := by
  intro hc
  have blank := h.solid '\r' hc
  exact absurd blank (by decide)

end IsSolid

end Text

namespace Sha256

theorem isBlank_hexDigit {n : Nat} (h : n < 16) : Text.isBlank (hexDigit n) = false := by
  revert n
  decide

theorem hash_ne_nil (message : List UInt8) : hash message ≠ [] := by
  simp [hash, State.words, bytesOf]

/-- Bytes in hexadecimal are a solid text, if there are any. -/
theorem isSolid_hexOf {bytes : List UInt8} (h : bytes ≠ []) : Text.IsSolid (hexOf bytes) where
  nonempty := by
    cases bytes with
    | nil => exact absurd rfl h
    | cons b bs =>
      intro e
      have chars := congrArg String.toList e
      simp [hexOf] at chars
  solid c hc := by
    rw [hexOf, String.toList_ofList, List.mem_flatMap] at hc
    obtain ⟨b, -, hc⟩ := hc
    have bound := b.toNat_lt
    simp only [List.mem_cons, List.not_mem_nil, or_false] at hc
    rcases hc with rfl | rfl
    · exact isBlank_hexDigit (by omega)
    · exact isBlank_hexDigit (by omega)

theorem length_hexOf (bytes : List UInt8) : (hexOf bytes).length = 2 * bytes.length := by
  simp [hexOf, List.length_flatMap, Nat.mul_comm]

end Sha256

namespace Migrations

theorem isSolid_emptyDigest : Text.IsSolid emptyDigest where
  nonempty := by decide
  solid c hc := by
    have all : emptyDigest.toList.all (fun c => !Text.isBlank c) = true := by decide
    simpa using List.all_eq_true.1 all c hc

theorem isSolid_calculate {d : Disk} {directory : Path} {extension : Value} {digest : String}
    (h : calculate d directory extension = .ok digest) : Text.IsSolid digest := by
  unfold calculate calculateWith at h
  split at h
  · rw [← Except.ok.inj h, digestWith]
    exact Sha256.isSolid_hexOf (Sha256.hash_ne_nil _)
  · cases h
  · cases h

/-- Every digest is a solid text. -/
theorem isSolid_digest {d : Disk} {directory : Path} {extension : Value} {D : String}
    (h : digest d directory extension = .ok D) : Text.IsSolid D := by
  obtain ⟨there, -, h⟩ := bind_eq_ok.1 h
  cases there with
  | false =>
    obtain rfl := Except.ok.inj h
    exact isSolid_emptyDigest
  | true =>
    rw [if_pos rfl] at h
    split at h
    · obtain rfl := Except.ok.inj h
      exact isSolid_emptyDigest
    · exact isSolid_calculate h

/-- A directory whose files can be read has the digest of these. -/
theorem digest_of_files {d : Disk} {directory : Path} {extension : Value}
    {fs : List (String × ByteArray)} (there : d.isDirectory directory = .ok true)
    (read : files d directory extension = .ok fs) :
    digest d directory extension = .ok (digestWith Sha256.hash fs) := by
  rw [digest, there, ok_bind, if_pos rfl, calculate, calculateWith, read]

/-- It is not the word for migrations that are not there, which is no sequence of pairs of
digits. -/
theorem digestWith_ne_emptyDigest (hash : List UInt8 → List UInt8)
    (fs : List (String × ByteArray)) : digestWith hash fs ≠ emptyDigest := by
  intro same
  have digits := congrArg String.length same
  rw [digestWith, Sha256.length_hexOf] at digits
  have odd : emptyDigest.length = 5 := by decide
  omega

end Migrations

theorem Settings.isSolid_migrationsDigest {s : Settings} {repo : Repository}
    {d : Disk} {D : String}
    (h : s.migrationsDigest repo d = .ok D) : Text.IsSolid D := by
  obtain ⟨p, -, digest⟩ := bind_eq_ok.1 h
  exact Migrations.isSolid_digest digest

end Schemata
