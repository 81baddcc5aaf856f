/-
The firmware packs that the store knows (`firmwareStore.PACKS`).
-/
import SamsungTVVoices.Protocol

namespace SamsungTVVoices.Store

/-- The keys of `PACKS`. -/
inductive PackId where
  | europe | northAmerica
deriving DecidableEq, Repr

/-- The fields of a pack that the installer uses. -/
structure Pack where
  family : String
  version : String
  sha256 : String
deriving DecidableEq, Repr

/-- The keys of `PACKS` in their order. -/
def PACKS : List PackId := [.europe, .northAmerica]

/-- The key as the source writes it. -/
def PackId.key : PackId → String
  | europe => "europe"
  | northAmerica => "northAmerica"

def PackId.pack : PackId → Pack
  | europe =>
      { family := "T-KTMDEUC"
        version := "1410.1"
        sha256 := "AC092BAE5CD86EC4EB76D3FE85DF12F6036A6CAEB4488E3C345EAE95138149C7" }
  | northAmerica =>
      { family := "T-KTMAKUC"
        version := "1410.1"
        sha256 := "F09733B139FD4BE18468AD211BA5E867496D626932A2E271027ABB4BF59B2D34" }

/-- `packId in PACKS`, with the pack that it names. -/
def PackId.ofKey? (key : String) : Option PackId := PACKS.find? fun id => id.key == key

lemma mem_PACKS (id : PackId) : id ∈ PACKS := by
  cases id <;> simp [PACKS]

@[simp] lemma PackId.ofKey?_key (id : PackId) : PackId.ofKey? id.key = some id := by
  cases id <;> rfl

end SamsungTVVoices.Store
