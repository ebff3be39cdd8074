import Spfs.Btree.Split
import Spfs.Btree.Valid
import Spfs.Btree.Exact
import Spfs.Btree.InsertFailure
import Spfs.Btree.Layout
import Spfs.Btree.Median
import Spfs.FreeList.Exact
import Spfs.Mkfs.Space
import Spfs.Fsck.Agree
import Spfs.File.ByteArray
import Spfs.File.Chain
import Spfs.File.ExtentRead
import Spfs.File.Isolation
import Spfs.File.Growth
import Spfs.Inode.Load
import Spfs.Inode.Reuse
import Spfs.Inode.WriteBack
import Spfs.Dir.Failure
import Spfs.Dir.Contents
import Spfs.Dir.Iterate
import Spfs.Dir.Safety
import Spfs.Dir.References
import Spfs.Namespace.Law
import Spfs.Exits
import Spfs.Headers
import Spfs.Util.Fields
import Spfs.Remount
import Spfs.Concurrent
import Spfs.Vfs.Space
import Spfs.Vfs.Tree
import Spfs.Vfs.Check
import Spfs.Vfs.Cut
import Spfs.Vfs.Durable
import Spfs.Vfs.Locked
import Spfs.File.Reload
import Spfs.Namespace.Directory
