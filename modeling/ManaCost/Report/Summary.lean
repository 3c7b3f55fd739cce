import ManaCost.ColorSet.Lookup
import ManaCost.Cost.Partition
import ManaCost.Report.Json
import ManaCost.Scan
import ManaCost.Settlement

namespace ManaCost.Report

/-!
# Summaries

What reports say about a symbol, a cost, a scan, a payment, a comparison and a color set, and how
each of them becomes a record.
-/

/-- What a report says about a symbol. -/
structure SymbolSummary where
  symbol : String
  kind : Kind
  manaValue : Amount
  colors : List Char
  options : List String

/-- What a report says about a cost. -/
structure CostSummary where
  cost : String
  manaValue : Amount
  color : String
  colors : List Char
  isPure : Bool
  varies : Bool
  devotion : List (Char × Nat)
  symbols : List SymbolSummary

/-- What a report says about rules text. -/
structure ScanSummary where
  text : String
  symbols : List SymbolSummary

/-- What a report says about a payment; nothing remains of a payment that fails. -/
structure PaymentSummary where
  cost : String
  payment : String
  remainder? : Option String
  policy : Policy

/-- What a report says about two costs. -/
structure ComparisonSummary where
  left : String
  right : String
  leftOnly : String
  both : String
  rightOnly : String
  relation : Relation
  comparison : Ordering

/-- What a report says about a color set. -/
structure ColorSetSummary where
  name : String
  aliases : List String
  mask : Nat
  colors : List Char

namespace SymbolSummary

/-- The summary of a symbol. -/
def of
    (symbol : Symbol) :
    SymbolSummary where
  symbol := symbol.text
  kind := symbol.kind
  manaValue := symbol.manaValue
  colors := symbol.color.letters
  options := symbol.options.map PureSymbol.text

/-- The record of a symbol. -/
def report
    (summary : SymbolSummary) :
    Json :=
  .record [
    ("symbol", .text summary.symbol),
    ("kind", .text summary.kind.label),
    ("mana_value", .amount summary.manaValue),
    ("colors", .letters summary.colors),
    ("options", .texts summary.options)]

end SymbolSummary

namespace CostSummary

/-- The summary of a cost, with its devotion to each pigment. -/
def of
    (cost : Cost) :
    CostSummary where
  cost := cost.text
  manaValue := cost.manaValue
  color := cost.color.name
  colors := cost.color.letters
  isPure := cost.isPure
  varies := cost.varies
  devotion := Color.wheel.map fun color => (color.letter, cost.devotion color)
  symbols := cost.symbols.map .of

/-- The record of a cost. -/
def report
    (summary : CostSummary) :
    Json :=
  .record [
    ("cost", .text summary.cost),
    ("mana_value", .amount summary.manaValue),
    ("color", .text summary.color),
    ("colors", .letters summary.colors),
    ("pure", .bool summary.isPure),
    ("varies", .bool summary.varies),
    ("devotion", .record (summary.devotion.map fun entry =>
      (String.singleton entry.1, .integer entry.2))),
    ("symbols", .list (summary.symbols.map SymbolSummary.report))]

end CostSummary

namespace ScanSummary

/-- The summary of rules text. -/
def of
    (text : String) :
    ScanSummary where
  text := text
  symbols := (symbolsIn text.toList).map .of

/-- The record of rules text. -/
def report
    (summary : ScanSummary) :
    Json :=
  .record [
    ("text", .text summary.text),
    ("count", .integer summary.symbols.length),
    ("symbols", .list (summary.symbols.map SymbolSummary.report))]

end ScanSummary

namespace PaymentSummary

/-- The summary of a settlement. -/
def of
    (settlement : Settlement) :
    PaymentSummary where
  cost := settlement.payer.cost.text
  payment := settlement.payment.cost.text
  remainder? := settlement.remainder?.map fun remainder => remainder.cost.text
  policy := settlement.policy

/-- The payment was made. -/
def paid
    (summary : PaymentSummary) :
    Bool :=
  summary.remainder?.isSome

/-- The record of a payment. -/
def report
    (summary : PaymentSummary) :
    Json :=
  .record [
    ("cost", .text summary.cost),
    ("payment", .text summary.payment),
    ("paid", .bool summary.paid),
    ("remainder", (summary.remainder?.map Json.text).getD .null),
    ("color_pays_generic", .bool summary.policy.colorPaysGeneric),
    ("fail_on_excess", .bool summary.policy.failOnExcess)]

end PaymentSummary

namespace ComparisonSummary

/-- The summary of two costs. -/
def of
    (left right : Cost) :
    ComparisonSummary :=
  let partition := Partition.of left right
  { left := left.text
    right := right.text
    leftOnly := partition.leftOnly.text
    both := partition.both.text
    rightOnly := partition.rightOnly.text
    relation := partition.relation
    comparison := partition.comparison }

/-- The record of two costs. -/
def report
    (summary : ComparisonSummary) :
    Json :=
  .record [
    ("a", .text summary.left),
    ("b", .text summary.right),
    ("a_only", .text summary.leftOnly),
    ("both", .text summary.both),
    ("b_only", .text summary.rightOnly),
    ("relation", .text summary.relation.label),
    ("comparison", .integer (signOf summary.comparison))]

end ComparisonSummary

namespace ColorSetSummary

/-- The summary of a color set. -/
def of
    (set : ColorSet) :
    ColorSetSummary where
  name := set.name
  aliases := set.aliases
  mask := set.mask
  colors := set.letters

/-- The record of a color set. -/
def report
    (summary : ColorSetSummary) :
    Json :=
  .record [
    ("name", .text summary.name),
    ("aliases", .texts summary.aliases),
    ("mask", .integer summary.mask),
    ("colors", .letters summary.colors)]

end ColorSetSummary

end ManaCost.Report
