import ManaCost.Main
import ManaCost.Proofs.Bill.Below
import ManaCost.Proofs.Bill.Growth
import ManaCost.Proofs.Bill.Instalments
import ManaCost.Proofs.Bill.Matching
import ManaCost.Proofs.Bill.Rendering
import ManaCost.Proofs.Bill.Scan
import ManaCost.Proofs.Bill.Session
import ManaCost.Proofs.Bill.Standing
import ManaCost.Proofs.Bill.Substitution
import ManaCost.Proofs.Bill.Sum
import ManaCost.Proofs.CommandLine.Pay
import ManaCost.Proofs.Cost.Between
import ManaCost.Proofs.Cost.Containment
import ManaCost.Proofs.Cost.NormalForm
import ManaCost.Proofs.ColorSet.Letters
import ManaCost.Proofs.Family
import ManaCost.Proofs.Report.Summary
import ManaCost.Proofs.Symbol.Canonical
import ManaCost.Report.Style
import ManaCost.Symbol.Catalog
