import ReplicaController.SortedMap

/-!
# Labels

The labels of an object, in the order of their keys.
-/

namespace ReplicaController

abbrev Labels := SortedMap String String

end ReplicaController
