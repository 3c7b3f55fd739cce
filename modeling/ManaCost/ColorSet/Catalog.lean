import ManaCost.ColorSet.Basic

namespace ManaCost

/-!
# The catalog of color sets

Each of the 64 color sets has an entry with its names and its printing order, the order in which a
cost or a hybrid symbol shows its colors.  The entries without colorless come first; each of them
has a companion with colorless, which is printed first.

The main statement is `ColorSet.ofList_printingOrder`: a printing order lists the colors of its
set.
-/

/-- The names and the printing order of a color set. -/
structure CatalogEntry where
  names : List String
  /-- A short code, which is a name too. -/
  code? : Option String
  colors : List Color

namespace CatalogEntry

/-- The color set of an entry. -/
def set
    (entry : CatalogEntry) :
    ColorSet :=
  .ofList entry.colors

/-- Every name of an entry, the primary one first. -/
def aliases
    (entry : CatalogEntry) :
    List String :=
  entry.names ++ entry.code?.toList

/-- An entry with one name and no code. -/
def named
    (name : String)
    (colors : List Color) :
    CatalogEntry :=
  ⟨[name], none, colors⟩

/-- The companion of an entry that holds colorless as well. -/
def withColorless
    (entry : CatalogEntry) :
    CatalogEntry :=
  match entry.colors with
  | [] => named Color.colorless.name [.colorless]
  | colors =>
      { names := entry.names.map (· ++ "+" ++ Color.colorless.name)
        code? := entry.code?.map (· ++ "+" ++ String.singleton Color.colorless.letter)
        colors := .colorless :: colors }

end CatalogEntry

namespace ColorSet

/-- The entries of the sets without colorless. -/
def pigmentCatalog : List CatalogEntry := [
  .named "Empty" [],
  .named "White" [.white],
  .named "Azorius" [.white, .blue],
  .named "Orzhov" [.white, .black],
  .named "Blue" [.blue],
  .named "Dimir" [.blue, .black],
  .named "Izzet" [.blue, .red],
  .named "Black" [.black],
  .named "Rakdos" [.black, .red],
  .named "Golgari" [.black, .green],
  .named "Red" [.red],
  .named "Gruul" [.red, .green],
  .named "Boros" [.red, .white],
  .named "Green" [.green],
  .named "Selesnya" [.green, .white],
  .named "Simic" [.green, .blue],
  .named "Bant" [.green, .white, .blue],
  .named "Esper" [.white, .blue, .black],
  .named "Grixis" [.blue, .black, .red],
  .named "Jund" [.black, .red, .green],
  .named "Naya" [.red, .green, .white],
  ⟨["Mardu", "Savai", "Dega"], none, [.red, .white, .black]⟩,
  ⟨["Temur", "Ketria", "Ceta"], none, [.green, .blue, .red]⟩,
  ⟨["Abzan", "Indatha", "Necra"], none, [.white, .black, .green]⟩,
  ⟨["Jeskai", "Raugrin", "Raka"], none, [.blue, .red, .white]⟩,
  ⟨["Sultai", "Zagoth", "Ana"], none, [.black, .green, .blue]⟩,
  .named "Chaos" [.blue, .black, .red, .green],
  .named "Aggression" [.black, .red, .green, .white],
  .named "Altruism" [.red, .green, .white, .blue],
  .named "Growth" [.green, .white, .blue, .black],
  .named "Artifice" [.white, .blue, .black, .red],
  ⟨["Five-Color"], some "5C", [.white, .blue, .black, .red, .green]⟩]

/-- The entries of all sets. -/
def catalog : List CatalogEntry :=
  pigmentCatalog ++ pigmentCatalog.map CatalogEntry.withColorless

/-- Every color set, in the order of the catalog. -/
def all : List ColorSet :=
  catalog.map CatalogEntry.set

/-- The entry of a color set. -/
def entry
    (set : ColorSet) :
    CatalogEntry :=
  (catalog.find? fun entry => entry.set == set).getD (.named "Empty" [])

/-- The position of a color set in the catalog. -/
def ordinal
    (set : ColorSet) :
    Nat :=
  all.idxOf set

/-- The colors of a set in the order in which they are shown. -/
def printingOrder
    (set : ColorSet) :
    List Color :=
  set.entry.colors

/-- Every name of a color set, the primary one first. -/
def aliases
    (set : ColorSet) :
    List String :=
  set.entry.aliases

/-- The primary name of a color set. -/
def name
    (set : ColorSet) :
    String :=
  set.aliases.headD ""

instance : ToString ColorSet :=
  ⟨name⟩

/-- The letters of a color set in printing order. -/
def letters
    (set : ColorSet) :
    List Char :=
  set.printingOrder.map Color.letter

/-- A name in capitals, with `_` for a hyphen. -/
def capitals
    (name : String) :
    String :=
  name.map fun character => if character == '-' then '_' else character.toUpper

/-- The name of a color set as a constant: that of its pigments in capitals, and `_C` behind it
when the set holds colorless too. -/
def constantName
    (set : ColorSet) :
    String :=
  let pigments := set \ single .colorless
  if set = pigments then
    capitals set.name
  else if pigments.isEmpty then
    capitals set.name
  else
    capitals pigments.name ++ "_C"

/-- What holds of every word of six bits holds of every color set. -/
theorem forall_iff
    {property : ColorSet → Prop} :
    (∀ set, property set) ↔ ∀ bits, property ⟨bits⟩ :=
  ⟨fun every bits => every ⟨bits⟩, fun every set => every set.bits⟩

/-- A printing order lists the colors of its set. -/
theorem ofList_printingOrder
    (set : ColorSet) :
    ofList set.printingOrder = set := by
  revert set
  rw [forall_iff]
  decide +kernel

/-- A printing order names no color twice. -/
theorem nodup_printingOrder
    (set : ColorSet) :
    set.printingOrder.Nodup := by
  revert set
  rw [forall_iff]
  decide +kernel

/-- The catalog holds every color set. -/
theorem mem_all
    (set : ColorSet) :
    set ∈ all := by
  revert set
  rw [forall_iff]
  decide +kernel

end ColorSet

end ManaCost
