import Mathlib
import Census.Script.Grammar.Module
import Census.Proofs.Script.Grammar.Statement
/-!
Imports, exports and the items of a module keep to the characters that are left.
-/

set_option mvcgen.warning false

namespace Census.Script

open Census.Text (Pos)
open Std.Do
open Parse

variable {n k start : Pos} {g : Grammar} {nodes : List Node}

@[spec] theorem moduleSource_keeps : Keeps n k moduleSource := by
  mvcgen [moduleSource]
  all_goals grind -linarith

@[spec] theorem attributes_keeps (hg : g.Keeps n) (ctx : Context) :
    Keeps n k (attributes g ctx) := by
  mvcgen [attributes]
  all_goals grind -linarith

@[spec] theorem exportName_keeps : Keeps n k exportName := by
  mvcgen [exportName]
  all_goals grind -linarith

/-! ## Imports -/

@[spec] theorem importedName_keeps (ctx : Context) : Keeps n k (importedName ctx) := by
  mvcgen [importedName]
  all_goals grind -linarith

@[spec] theorem phased_keeps (ctx : Context) : Keeps n k (defaultImport.phased ctx) := by
  mvcgen [defaultImport.phased]
  all_goals grind -linarith

@[spec] theorem defaultImport_keeps (ctx : Context) : Keeps n k (defaultImport ctx) := by
  mvcgen [defaultImport]
  all_goals grind -linarith

@[spec] theorem importClause_keeps (ctx : Context) : Keeps n k (importClause ctx) := by
  mvcgen [importClause]
  all_goals grind -linarith

@[spec] theorem importItem_keeps (hg : g.Keeps n) (ctx : Context) :
    Keeps n k (importItem g ctx) := by
  mvcgen [importItem]
  all_goals grind -linarith

/-! ## Exports -/

@[spec] theorem exportSource_keeps (hg : g.Keeps n) (ctx : Context) (h : start ≤ n) :
    Keeps n k (exportSource g ctx start) := by
  mvcgen [exportSource]
  all_goals grind -linarith

@[spec] theorem checkExported_keeps (h : Within n nodes) : Keeps n k (checkExported nodes) := by
  mvcgen [checkExported]
  all_goals grind -linarith

@[spec] theorem exportedName_keeps : Keeps n k exportedName := by
  mvcgen [exportedName]
  all_goals grind -linarith

@[spec] theorem exportNames_keeps (hg : g.Keeps n) (ctx : Context) (h : start ≤ n) :
    Keeps n k (exportNames g ctx start) := by
  mvcgen [exportNames]
  all_goals grind -linarith

@[spec] theorem exportStar_keeps (hg : g.Keeps n) (ctx : Context) (h : start ≤ n) :
    Keeps n k (exportStar g ctx start) := by
  mvcgen [exportStar]
  all_goals grind -linarith

@[spec] theorem exportDefault_keeps (hg : g.Keeps n) (ctx : Context) (h : start ≤ n) :
    Keeps n k (exportDefault g ctx start) := by
  refine keeps_of_start fun inner hinner => ?_
  mvcgen [exportDefault, here, -here_keeps]
  all_goals grind -linarith

@[spec] theorem exportRest_keeps (hg : g.Keeps n) (ctx : Context) (h : start ≤ n) :
    Keeps n k (exportRest g ctx start) := by
  refine keeps_of_start fun inner hinner => ?_
  mvcgen [exportRest, here, -here_keeps]
  all_goals grind -linarith

@[spec] theorem exportItem_keeps (hg : g.Keeps n) (ctx : Context) :
    Keeps n k (exportItem g ctx) := by
  mvcgen [exportItem]
  all_goals grind -linarith

/-! ## Modules -/

@[spec] theorem moduleItem_keeps (hg : g.Keeps n) (ctx : Context) :
    Keeps n k (moduleItem g ctx) := by
  mvcgen [moduleItem]
  all_goals grind -linarith

theorem moduleItems_keeps (hg : g.Keeps n) (ctx : Context) : Keeps n k (moduleItems g ctx) :=
  collectUntil_keeps isEof_keeps (moduleItem_keeps hg ctx)

end Census.Script
