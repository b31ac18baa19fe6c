import SchemaForge.Service

/-!
# The sample

The schema that a new account starts with, drawn by the same builders as any other.
-/

namespace SchemaForge

namespace DataType

def simple (kind : DataTypeKind) : DataType where
  kind := kind
  length := none
  precision := none
  scale := none

end DataType

namespace Attribute

/-- A primary key is never nullable. -/
def asPrimaryKey (attr : Attribute) : Attribute :=
  { attr with primaryKey := true, nullable := false }

def required (attr : Attribute) : Attribute := { attr with nullable := false }

def asUnique (attr : Attribute) : Attribute := { attr with unique := true }

def referencing (attr : Attribute) (reference : ForeignKeyRef) : Attribute :=
  { attr with foreignKey := some reference }

end Attribute

namespace Entity

def withPosition (entity : Entity) (position : Position) : Entity := { entity with position }

def withAttributes (entity : Entity) (attributes : List Attribute) : Entity :=
  { entity with attributes }

end Entity

namespace Sample

def sampleSchemaName : Str := "Sample blog"

def key (id : Str) : Attribute := (Attribute.new id "id" (.simple .uuid)).asPrimaryKey.asUnique

def reference (id name entity : Str) : Attribute :=
  (Attribute.new id name (.simple .uuid)).required.referencing ⟨entity, entity ++ ".id"⟩

def varchar (id name : Str) : Attribute := (Attribute.new id name (.simple .varchar)).required

def text (id name : Str) : Attribute := Attribute.new id name (.simple .text)

def timestamp (id : Str) : Attribute :=
  (Attribute.new id "created_at" (.simple .timestamp)).required

def users : Entity :=
  ((Entity.new "users" "users").withPosition ⟨.ofInt 100, .ofInt 100⟩).withAttributes [
    key "users.id",
    (varchar "users.email" "email").asUnique,
    varchar "users.name" "name",
    timestamp "users.created_at"]

def posts : Entity :=
  ((Entity.new "posts" "posts").withPosition ⟨.ofInt 500, .ofInt 100⟩).withAttributes [
    key "posts.id",
    reference "posts.user_id" "user_id" "users",
    varchar "posts.title" "title",
    text "posts.content" "content",
    timestamp "posts.created_at"]

def comments : Entity :=
  ((Entity.new "comments" "comments").withPosition ⟨.ofInt 300, .ofInt 400⟩).withAttributes [
    key "comments.id",
    reference "comments.post_id" "post_id" "posts",
    reference "comments.user_id" "user_id" "users",
    (text "comments.content" "content").required,
    timestamp "comments.created_at"]

def sampleSchema : SchemaDraft where
  name := sampleSchemaName
  description := []
  entities := [users, posts, comments]
  relationships := [
    .new "rel-users-posts" ("users", "users.id") ("posts", "posts.user_id") .oneToMany,
    .new "rel-posts-comments" ("posts", "posts.id") ("comments", "comments.post_id") .oneToMany,
    .new "rel-users-comments" ("users", "users.id") ("comments", "comments.user_id") .oneToMany]

end Sample

end SchemaForge
