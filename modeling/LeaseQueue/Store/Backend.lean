import LeaseQueue.Store.Error
/-! The kinds of database a store can be opened in, told apart by the scheme of its URL. -/
namespace LeaseQueue

inductive Backend where
  | postgres
  | sqlite
deriving DecidableEq

/-- The kind of database that a URL names. Schemes are told apart by their exact letters. -/
def Backend.ofUrl (url : String) : Except StoreError Backend :=
  if "postgres://".toList.isPrefixOf url.toList || "postgresql://".toList.isPrefixOf url.toList then
    .ok .postgres
  else if "sqlite://".toList.isPrefixOf url.toList then .ok .sqlite
  else .error (.unsupportedUrl url)

end LeaseQueue
